import TorrentControl.Registry

/-! # The built-in commands

The table of commands that every engine of the daemon starts with, in the order in which they are
registered. A signature names the result before the colon and the parameters behind it. -/

namespace TorrentControl

structure Builtin where
  key : String
  callable : Callable
  signature : String
  isPublic : Bool
deriving DecidableEq

namespace Builtin

def published (key : String) (callable : Callable) (signature : String) : Builtin :=
  ⟨key, callable, signature, true⟩

/-- A command that only the command language reaches. -/
def hidden (key : String) (callable : Callable) (signature : String) : Builtin :=
  ⟨key, callable, signature, false⟩

/-! ## Downloads -/

def readInt (key : String) (reading : DownloadReading) : Builtin :=
  published key (.download (.read reading)) "i:"

def readText (key : String) (reading : DownloadReading) : Builtin :=
  published key (.download (.read reading)) "s:"

def setInt (key : String) (setting : IntSetting) : Builtin :=
  published key (.download (.setInt setting)) "i:i"

def setText (key : String) (setting : TextSetting) : Builtin :=
  published key (.download (.setText setting)) "i:s"

def order (key : String) (command : DownloadCommand) : Builtin :=
  published key (.download command) "i:"

def identity : List Builtin :=
  [readText "d.get_hash" .hash,
    readText "d.get_local_id" .localId,
    readText "d.get_local_id_html" .localIdHtml,
    readText "d.get_base_path" .basePath,
    readText "d.get_base_filename" .baseFilename,
    readText "d.get_name" .name,
    readText "d.get_bitfield" .bitfield]

def lifecycle : List Builtin :=
  [order "d.resume" (.act .resume),
    order "d.pause" (.act .pause),
    order "d.open" (.act .openStorage),
    order "d.close" (.act .closeStorage),
    order "d.erase" .erase,
    order "d.check_hash" (.act .checkHash),
    setText "d.add_peer" .addedPeer,
    order "d.delete_tied" .deleteTied,
    order "d.try_start" .tryStart,
    order "d.try_stop" .tryStop,
    order "d.try_close" .tryClose,
    readInt "d.is_open" .isOpen,
    readInt "d.is_active" .isActive,
    readInt "d.is_hash_checked" .isHashChecked,
    readInt "d.is_hash_checking" .isHashChecking,
    readInt "d.is_multi_file" .isMultiFile,
    readInt "d.is_private" .isPrivate,
    readInt "d.is_pex_active" .isPexActive]

/-- A variable that only the daemon itself sets. -/
def keptInt (name : String) : List Builtin :=
  [readInt ("d.get_" ++ name) (.variableNamed name),
    hidden ("d.set_" ++ name) (.download (.setInt (.variableNamed name))) "i:i"]

def keptText (name : String) : List Builtin :=
  [readText ("d.get_" ++ name) (.variableNamed name),
    hidden ("d.set_" ++ name) (.download (.setText (.variableNamed name))) "i:s"]

def openInt (name : String) : List Builtin :=
  [readInt ("d.get_" ++ name) (.variableNamed name),
    setInt ("d.set_" ++ name) (.variableNamed name)]

def openText (name : String) : List Builtin :=
  [readText ("d.get_" ++ name) (.variableNamed name),
    setText ("d.set_" ++ name) (.variableNamed name)]

def treeValues : List Builtin :=
  keptInt "state" ++ keptInt "complete" ++ keptInt "mode" ++ keptInt "hashing" ++
    keptInt "state_changed" ++ keptInt "state_counter" ++ openInt "ignore_commands" ++
    openText "tied_to_file" ++ keptText "loaded_file" ++ keptText "connection_leech" ++
    keptText "connection_seed" ++ openText "throttle_name" ++
    [readText "d.get_connection_current" .connection,
      setText "d.set_connection_current" .connection]

def customFields : List Builtin :=
  openText "custom1" ++ openText "custom2" ++ openText "custom3" ++ openText "custom4" ++
    openText "custom5" ++
    [order "d.set_custom" .setCustom,
      published "d.get_custom" (.download .custom) "s:s",
      published "d.get_custom_throw" (.download .customOrFail) "s:s"]

def views : List Builtin :=
  [order "d.views" (.list "views" .items),
    order "d.views.has" (.list "views" .has),
    order "d.views.remove" (.list "views" .remove),
    order "d.views.push_back" (.list "views" .push),
    order "d.views.push_back_unique" (.list "views" .pushUnique)]

def statistics : List Builtin :=
  [readInt "d.get_peers_connected" .peersConnected,
    readInt "d.get_peers_not_connected" .peersNotConnected,
    readInt "d.get_peers_complete" .peersComplete,
    readInt "d.get_peers_accounted" .peersAccounted,
    readInt "d.get_up_rate" .upRate,
    readInt "d.get_up_total" .upTotal,
    readInt "d.get_down_rate" .downRate,
    readInt "d.get_down_total" .downTotal,
    readInt "d.get_skip_rate" .skipRate,
    readInt "d.get_skip_total" .skipTotal,
    readInt "d.get_creation_date" .creationDate,
    readInt "d.get_bytes_done" .bytesDone,
    readInt "d.get_ratio" .ratio,
    readInt "d.get_chunks_hashed" .chunksHashed,
    readInt "d.get_size_files" .fileCount,
    readInt "d.get_size_bytes" .sizeInBytes,
    readInt "d.get_size_chunks" .sizeInChunks,
    readInt "d.get_completed_bytes" .completedBytes,
    readInt "d.get_completed_chunks" .completedChunks,
    readInt "d.get_left_bytes" .leftBytes,
    readInt "d.get_chunk_size" .chunkSize,
    readInt "d.get_tracker_focus" .trackerFocus,
    readInt "d.get_tracker_size" .trackerCount,
    readInt "d.get_size_pex" .pexSize,
    readInt "d.get_max_size_pex" .maxPexSize]

def settings : List Builtin :=
  [readInt "d.get_hashing_failed" .hasHashFailed,
    setInt "d.set_hashing_failed" .hashFailed,
    readInt "d.get_peer_exchange" .isPexEnabled,
    setInt "d.set_peer_exchange" .peerExchange,
    readText "d.get_message" .message,
    setText "d.set_message" .message,
    readInt "d.get_max_file_size" .maxFileSize,
    setInt "d.set_max_file_size" .maxFileSize,
    readInt "d.get_peers_min" .peersMin,
    setInt "d.set_peers_min" .peersMin,
    readInt "d.get_peers_max" .peersMax,
    setInt "d.set_peers_max" .peersMax,
    readInt "d.get_uploads_max" .uploadsMax,
    setInt "d.set_uploads_max" .uploadsMax,
    readInt "d.get_tracker_numwant" .trackerNumWant,
    setInt "d.set_tracker_numwant" .trackerNumWant,
    readText "d.get_directory" .directory,
    setText "d.set_directory" .directory,
    readText "d.get_directory_base" .directory,
    setText "d.set_directory_base" .directoryBase,
    readInt "d.get_priority" .priority,
    setInt "d.set_priority" .priority,
    readText "d.get_priority_str" .priorityName]

def partMulticalls : List Builtin :=
  [order "f.multicall" (.multicall .files),
    order "p.multicall" (.multicall .peers),
    order "t.multicall" (.multicall .trackers)]

def script (key text : String) : Builtin :=
  published key (.script text) "i:"

def scripts : List Builtin :=
  [script "d.start"
      ("d.set_hashing_failed=0 ;d.views.push_back_unique=started ;" ++
        "d.views.remove=stopped ;d.resume"),
    script "d.stop" "d.views.push_back_unique=stopped ;d.views.remove=started ;d.pause"]

/-! ## Parts of downloads -/

def readFile (key : String) (reading : FileReading) (signature : String) : Builtin :=
  published key (.file (.read reading)) signature

def readCursor (key : String) (reading : CursorReading) : Builtin :=
  published key (.cursor (.read reading)) "i:"

def files : List Builtin :=
  [readFile "f.get_path" .path "s:",
    readFile "f.get_path_components" .pathComponents "i:",
    readFile "f.get_size_bytes" .sizeInBytes "i:",
    readFile "f.get_size_chunks" .sizeInChunks "i:",
    readFile "f.get_completed_chunks" .completedChunks "i:",
    readFile "f.get_offset" .offset "i:",
    readFile "f.get_priority" .priority "i:",
    published "f.set_priority" (.file .setPriority) "i:i",
    readCursor "fi.get_position" .position,
    readCursor "fi.is_last" .isLast]

def readPeer (key : String) (reading : PeerReading) (signature : String) : Builtin :=
  published key (.peer (.read reading)) signature

def peers : List Builtin :=
  [readPeer "p.get_address" .address "s:",
    readPeer "p.get_port" .port "i:",
    readPeer "p.get_client_version" .clientVersion "s:",
    readPeer "p.get_id" .id "s:",
    readPeer "p.get_up_rate" .upRate "i:",
    readPeer "p.get_up_total" .upTotal "i:",
    readPeer "p.get_down_rate" .downRate "i:",
    readPeer "p.get_down_total" .downTotal "i:",
    readPeer "p.is_encrypted" .isEncrypted "i:",
    readPeer "p.is_incoming" .isIncoming "i:",
    readPeer "p.get_completed_percent" .completedPercent "i:"]

def readTracker (key : String) (reading : TrackerReading) (signature : String) : Builtin :=
  published key (.tracker (.read reading)) signature

def trackers : List Builtin :=
  [readTracker "t.get_url" .url "s:",
    readTracker "t.get_group" .group "i:",
    readTracker "t.get_type" .protocolCode "i:",
    readTracker "t.is_enabled" .isEnabled "i:",
    published "t.set_enabled" (.tracker .setEnabled) "i:i",
    readTracker "t.get_scrape_complete" .scrapeComplete "i:",
    readTracker "t.get_scrape_incomplete" .scrapeIncomplete "i:",
    readTracker "t.get_scrape_downloaded" .scrapeDownloaded "i:"]

/-! ## Pairs and the whole session -/

def pairs : List Builtin :=
  [published "less" (.pair .less) "i:s",
    published "greater" (.pair .greater) "i:s",
    published "compare" (.pair .compare) "i:s"]

def sessionWide : List Builtin :=
  [published "download_list" (.generic .downloadList) "A:",
    published "d.multicall" (.generic .multicall) "A:s",
    hidden "print" (.generic .print) "i:s",
    published "method.insert" (.generic .insertMethod) "i:sss",
    published "method.alias" (.generic .aliasMethod) "i:ss",
    published "method.erase" (.generic .eraseMethod) "i:s",
    published "method.exists" (.generic .existsMethod) "i:s"]

/-! ## All of them -/

def all : List Builtin :=
  identity ++ lifecycle ++ treeValues ++ customFields ++ views ++ statistics ++ settings ++
    partMulticalls ++ scripts ++ files ++ peers ++ trackers ++ pairs ++ sessionWide

end Builtin

namespace Registry

/-- Registers commands up to the first key that is taken, of which the error speaks. -/
def insertBuiltins (r : Registry) : List Builtin → Option RegistryError × Registry
  | [] => (none, r)
  | b :: rest =>
    match r.insert b.key b.callable ⟨false, false, b.isPublic⟩ b.signature "" with
    | .ok r => insertBuiltins r rest
    | .error e => (some e, r)

/-- What is registered of a table. -/
def withBuiltins (r : Registry) (table : List Builtin) : Registry :=
  (r.insertBuiltins table).2

/-- A registry with the built-in commands and nothing else. -/
def builtin : Registry :=
  empty.withBuiltins Builtin.all

end Registry

end TorrentControl
