import TorrentControl.Proofs.Json.Record
import TorrentControl.Session.Manifest.Json

/-! # Manifests are read back from their JSON

A manifest is read back from its text, and also from every text with members left out of it that hold
their defaults, be it in the session, in a download, or in a file, a peer or a tracker of one. Reading
may nest as deep as the text is long, which is deep enough for any document. -/

namespace TorrentControl

open Json (Document Column Exactly Each AsRecord Members Fills ReadBack)

/-! ## Nesting -/

namespace Json.Document

mutual
/-- Each array and each object takes a character of the text. -/
theorem nesting_le_length_write : ∀ d : Document, nesting d ≤ (write d).length
  | .null | .bool _ | .number _ | .text _ | .broken => Nat.zero_le _
  | .array items ending => by
    have hitems := nestingItems_le_length_writeItems items
    rw [nesting, write, List.length_append, List.length_cons]
    omega
  | .object members ending => by
    have hmembers := nestingMembers_le_length_writeMembers members
    rw [nesting, write, List.length_append, List.length_cons]
    omega

theorem nestingItems_le_length_writeItems : ∀ items : List Document,
    nestingItems items ≤ (writeItems items).length
  | [] => Nat.zero_le _
  | [d] => by
    have hd := nesting_le_length_write d
    rw [nestingItems, nestingItems, writeItems]
    omega
  | d :: e :: rest => by
    have hd := nesting_le_length_write d
    have hrest := nestingItems_le_length_writeItems (e :: rest)
    rw [nestingItems, writeItems, List.length_append, List.length_cons]
    omega

theorem nestingMembers_le_length_writeMembers : ∀ members : List (Option String × Document),
    nestingMembers members ≤ (writeMembers members).length
  | [] => Nat.zero_le _
  | [(key, d)] => by
    have hd := nesting_le_length_write d
    rw [nestingMembers, nestingMembers, writeMembers, List.length_append, List.length_cons]
    omega
  | (key, d) :: member :: rest => by
    have hd := nesting_le_length_write d
    have hrest := nestingMembers_le_length_writeMembers (member :: rest)
    rw [nestingMembers, writeMembers, List.length_append, List.length_cons, List.length_append,
      List.length_cons]
    omega
end

end Json.Document

/-! ## Files, peers and trackers -/

namespace FileManifest

def columns : List (Column FileManifest) :=
  [.of "path" path (Exactly .string) "",
   .of "size" size (Exactly Json.writeWord) 0,
   .of "completed_chunks" completedChunks (Exactly Json.writeWord) 0,
   .of "priority" priority (Exactly (.ofOption Json.writeWord)) none]

theorem asRecord_toDocument (m : FileManifest) : AsRecord columns m m.toDocument :=
  ⟨_, .keep rfl <| .keep rfl <| .keep rfl <| .keep rfl .nil, rfl⟩

theorem readBack (m : FileManifest) : ReadBack (AsRecord columns) ofDocument m := by
  refine Json.readBack_record shape (by decide) ?_
  exact .field (Json.readBack_string _) rfl <|
    .field (Json.readBack_word _) rfl <|
    .field (Json.readBack_word _) rfl <|
    .field (Json.readBack_option Json.readBack_word nofun _) rfl .nil

end FileManifest

namespace PeerManifest

def columns : List (Column PeerManifest) :=
  [.of "address" address (Exactly .string) "",
   .of "port" port (Exactly Json.writePort) 0,
   .of "client_version" clientVersion (Exactly .string) "",
   .of "id" id (Exactly (.ofOption .string)) none,
   .of "up_rate" upRate (Exactly Json.writeWord) 0,
   .of "down_rate" downRate (Exactly Json.writeWord) 0,
   .of "encrypted" isEncrypted (Exactly .bool) false,
   .of "incoming" isIncoming (Exactly .bool) false,
   .of "completed_percent" completedPercent (Exactly Json.writeWord) 0]

theorem asRecord_toDocument (m : PeerManifest) : AsRecord columns m m.toDocument :=
  ⟨_, .keep rfl <| .keep rfl <| .keep rfl <| .keep rfl <| .keep rfl <| .keep rfl <| .keep rfl <|
    .keep rfl <| .keep rfl .nil, rfl⟩

theorem readBack (m : PeerManifest) : ReadBack (AsRecord columns) ofDocument m := by
  refine Json.readBack_record shape (by decide) ?_
  exact .field (Json.readBack_string _) rfl <|
    .field (Json.readBack_port _) rfl <|
    .field (Json.readBack_string _) rfl <|
    .field (Json.readBack_option Json.readBack_string nofun _) rfl <|
    .field (Json.readBack_word _) rfl <|
    .field (Json.readBack_word _) rfl <|
    .field (Json.readBack_bool _) rfl <|
    .field (Json.readBack_bool _) rfl <|
    .field (Json.readBack_word _) rfl .nil

end PeerManifest

namespace TrackerManifest

def columns : List (Column TrackerManifest) :=
  [.of "url" url (Exactly .string) "",
   .of "group" group (Exactly Json.writeWord) 0,
   .of "disabled" isDisabled (Exactly .bool) false,
   .of "scrape_complete" scrapeComplete (Exactly Json.writeWord) 0,
   .of "scrape_incomplete" scrapeIncomplete (Exactly Json.writeWord) 0,
   .of "scrape_downloaded" scrapeDownloaded (Exactly Json.writeWord) 0]

theorem asRecord_toDocument (m : TrackerManifest) : AsRecord columns m m.toDocument :=
  ⟨_, .keep rfl <| .keep rfl <| .keep rfl <| .keep rfl <| .keep rfl <| .keep rfl .nil, rfl⟩

theorem readBack (m : TrackerManifest) : ReadBack (AsRecord columns) ofDocument m := by
  refine Json.readBack_record shape (by decide) ?_
  exact .field (Json.readBack_string _) rfl <|
    .field (Json.readBack_word _) rfl <|
    .field (Json.readBack_bool _) rfl <|
    .field (Json.readBack_word _) rfl <|
    .field (Json.readBack_word _) rfl <|
    .field (Json.readBack_word _) rfl .nil

end TrackerManifest

/-! ## Downloads -/

namespace DownloadManifest

def columns : List (Column DownloadManifest) :=
  [.of "name" name (Exactly .string) "",
   .of "hash" hash (Exactly .string) "",
   .of "local_id" localId (Exactly (.ofOption .string)) none,
   .of "directory" directory (Exactly .string) "",
   .of "multi_file" isMultiFile (Exactly .bool) false,
   .of "chunk_size" chunkSize (Exactly (.ofOption Json.writeWord)) none,
   .of "files" files (Each (AsRecord FileManifest.columns)) [],
   .of "peers" peers (Each (AsRecord PeerManifest.columns)) [],
   .of "trackers" trackers (Each (AsRecord TrackerManifest.columns)) [],
   .of "private" isPrivate (Exactly .bool) false,
   .of "active" isActive (Exactly .bool) false,
   .of "priority" priority (Exactly (.ofOption Json.writeWord)) none,
   .of "connection" connection (Exactly (.ofOption .string)) none,
   .of "up_total" upTotal (Exactly Json.writeWord) 0,
   .of "bytes_done" bytesDone (Exactly Json.writeWord) 0,
   .of "creation_date" creationDate (Exactly Json.writeWord) 0,
   .of "custom" custom (Exactly Json.writeTextMap) [],
   .of "views" views (Each (Exactly .string)) [],
   .of "bitfield" bitfield (Exactly (.ofOption .string)) none,
   .of "pex_disabled" isPexDisabled (Exactly .bool) false]

theorem asRecord_toDocument (m : DownloadManifest) : AsRecord columns m m.toDocument := by
  have hfiles := Json.each_map FileManifest.asRecord_toDocument m.files
  have hpeers := Json.each_map PeerManifest.asRecord_toDocument m.peers
  have htrackers := Json.each_map TrackerManifest.asRecord_toDocument m.trackers
  have hviews : Each (Exactly .string) m.views (.list (m.views.map .string)) :=
    Json.each_map (show ∀ s, Exactly .string s (.string s) from fun _ => rfl) m.views
  exact ⟨_, .keep rfl <| .keep rfl <| .keep rfl <| .keep rfl <| .keep rfl <| .keep rfl <|
    .keep hfiles <| .keep hpeers <| .keep htrackers <| .keep rfl <| .keep rfl <| .keep rfl <|
    .keep rfl <| .keep rfl <| .keep rfl <| .keep rfl <| .keep rfl <| .keep hviews <| .keep rfl <|
    .keep rfl .nil, rfl⟩

theorem readBack {m : DownloadManifest} (h : m.custom.Ordered) :
    ReadBack (AsRecord columns) ofDocument m := by
  refine Json.readBack_record shape (by decide) ?_
  exact .field (Json.readBack_string _) rfl <|
    .field (Json.readBack_string _) rfl <|
    .field (Json.readBack_option Json.readBack_string nofun _) rfl <|
    .field (Json.readBack_string _) rfl <|
    .field (Json.readBack_bool _) rfl <|
    .field (Json.readBack_option Json.readBack_word nofun _) rfl <|
    .field (Json.readBack_each fun file _ => file.readBack) rfl <|
    .field (Json.readBack_each fun peer _ => peer.readBack) rfl <|
    .field (Json.readBack_each fun tracker _ => tracker.readBack) rfl <|
    .field (Json.readBack_bool _) rfl <|
    .field (Json.readBack_bool _) rfl <|
    .field (Json.readBack_option Json.readBack_word nofun _) rfl <|
    .field (Json.readBack_option Json.readBack_string nofun _) rfl <|
    .field (Json.readBack_word _) rfl <|
    .field (Json.readBack_word _) rfl <|
    .field (Json.readBack_word _) rfl <|
    .field (Json.readBack_textMap h) rfl <|
    .field (Json.readBack_each fun view _ => Json.readBack_string view) rfl <|
    .field (Json.readBack_option Json.readBack_string nofun _) rfl <|
    .field (Json.readBack_bool _) rfl .nil

end DownloadManifest

/-! ## Sessions -/

namespace SessionManifest

def columns : List (Column SessionManifest) :=
  [.of "downloads" downloads (Each (AsRecord DownloadManifest.columns)) []]

theorem asRecord_toDocument (m : SessionManifest) : AsRecord columns m m.toDocument :=
  ⟨_, .keep (Json.each_map DownloadManifest.asRecord_toDocument m.downloads) .nil, rfl⟩

/-- The custom fields of every download are a map. -/
def Ordered (m : SessionManifest) : Prop :=
  ∀ described ∈ m.downloads, described.custom.Ordered

theorem readBack {m : SessionManifest} (h : m.Ordered) :
    ReadBack (AsRecord columns) ofDocument m := by
  refine Json.readBack_record shape (by decide) ?_
  exact .field (Json.readBack_each fun described hmem => DownloadManifest.readBack (h described hmem))
    rfl .nil

theorem ofText_render {m : SessionManifest} (h : m.Ordered) {d : Document}
    (hd : AsRecord columns m d) : ofText d.render = .ok m := by
  obtain ⟨hwritable, hdecode⟩ := readBack h d hd
  have hdeep : d.nesting ≤ d.render.length := by
    rw [Document.render, String.length_ofList]
    exact d.nesting_le_length_write
  rw [ofText, Json.Reading.ofText_render hwritable hdeep, Json.Reading.decode, hdecode]
  rfl

/-- **A manifest is read back from its JSON**, and from every text that is left of it when members that
hold their defaults are taken out, anywhere in it. So both texts build the same session, or meet the
same error. -/
theorem read_back_without_defaults {m : SessionManifest} (h : m.Ordered) :
    ofText m.toJson = .ok m ∧
      ∀ d, AsRecord columns m d →
        ofText d.render = .ok m ∧ build <$> ofText d.render = build <$> ofText m.toJson := by
  have hwhole : ofText m.toJson = .ok m := ofText_render h m.asRecord_toDocument
  refine ⟨hwhole, fun d hd => ?_⟩
  have hpart := ofText_render h hd
  exact ⟨hpart, by rw [hpart, hwhole]⟩

/-- One active download with one file and two custom fields. -/
def withFile : SessionManifest :=
  ⟨[{ DownloadManifest.default with
      name := "a\"\n"
      files := [⟨"b/c", -1, 0, none⟩]
      isActive := true
      custom := [("k", "v"), ("l", "")] }]⟩

/-- The document without anything that is a default. -/
def withFileShort : Document :=
  .record [("downloads", .list [.record
    [("name", .string "a\"\n"),
     ("files", .list [.record [("path", .string "b/c"), ("size", .int (-1))]]),
     ("active", .bool true), ("custom", .record [("k", .string "v"), ("l", .string "")])]])]

theorem asRecord_withFileShort : AsRecord columns withFile withFileShort := by
  have hfile : AsRecord FileManifest.columns ⟨"b/c", -1, 0, none⟩
      (.record [("path", .string "b/c"), ("size", .int (-1))]) :=
    ⟨_, .keep rfl <| .keep rfl <| .leaveOut rfl <| .leaveOut rfl .nil, rfl⟩
  refine ⟨_, .keep ⟨_, .cons ⟨_, ?_, rfl⟩ .nil, rfl⟩ .nil, rfl⟩
  exact .keep rfl <| .leaveOut rfl <| .leaveOut rfl <| .leaveOut rfl <| .leaveOut rfl <|
    .leaveOut rfl <| .keep ⟨_, .cons hfile .nil, rfl⟩ <| .leaveOut rfl <| .leaveOut rfl <|
    .leaveOut rfl <| .keep rfl <| .leaveOut rfl <| .leaveOut rfl <| .leaveOut rfl <|
    .leaveOut rfl <| .leaveOut rfl <| .keep rfl <| .leaveOut rfl <| .leaveOut rfl <|
    .leaveOut rfl .nil

theorem withFile_read_back : withFile.Ordered ∧ AsRecord columns withFile withFileShort ∧
    ofText withFile.toJson = .ok withFile ∧ ofText withFileShort.render = .ok withFile := by
  have hordered : withFile.Ordered := by
    intro described hmem
    cases List.mem_singleton.1 hmem
    simp only [KeyMap.Ordered]
    decide
  obtain ⟨hwhole, hpart⟩ := read_back_without_defaults hordered
  exact ⟨hordered, asRecord_withFileShort, hwhole, (hpart _ asRecord_withFileShort).1⟩

end SessionManifest

end TorrentControl
