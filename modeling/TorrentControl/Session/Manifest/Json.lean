import TorrentControl.Json.Record
import TorrentControl.Session.Manifest

/-! # Session manifests in JSON

Every field has a default when a manifest is read, and members that are no field are skipped over.
A manifest is written with every field, in the order of its fields. -/

namespace TorrentControl

open Json (Document Field RecordShape)

/-! ## Reading -/

namespace FileManifest

def shape : RecordShape FileManifest :=
  { name := "FileManifest"
    fields :=
      [.of "path" Document.asString fun m v => { m with path := v },
       .of "size" Document.asWord fun m v => { m with size := v },
       .of "completed_chunks" Document.asWord fun m v => { m with completedChunks := v },
       .of "priority" (Document.asOption Document.asWord) fun m v => { m with priority := v }]
    start := ⟨"", 0, 0, none⟩
    refusesUnknown := false }

def ofDocument (d : Document) : Json.Decoded FileManifest :=
  Prod.fst <$> shape.decode d

end FileManifest

namespace PeerManifest

def shape : RecordShape PeerManifest :=
  { name := "PeerManifest"
    fields :=
      [.of "address" Document.asString fun m v => { m with address := v },
       .of "port" Document.asPort fun m v => { m with port := v },
       .of "client_version" Document.asString fun m v => { m with clientVersion := v },
       .of "id" (Document.asOption Document.asString) fun m v => { m with id := v },
       .of "up_rate" Document.asWord fun m v => { m with upRate := v },
       .of "down_rate" Document.asWord fun m v => { m with downRate := v },
       .of "encrypted" Document.asBool fun m v => { m with isEncrypted := v },
       .of "incoming" Document.asBool fun m v => { m with isIncoming := v },
       .of "completed_percent" Document.asWord fun m v => { m with completedPercent := v }]
    start := ⟨"", 0, "", none, 0, 0, false, false, 0⟩
    refusesUnknown := false }

def ofDocument (d : Document) : Json.Decoded PeerManifest :=
  Prod.fst <$> shape.decode d

end PeerManifest

namespace TrackerManifest

def shape : RecordShape TrackerManifest :=
  { name := "TrackerManifest"
    fields :=
      [.of "url" Document.asString fun m v => { m with url := v },
       .of "group" Document.asWord fun m v => { m with group := v },
       .of "disabled" Document.asBool fun m v => { m with isDisabled := v },
       .of "scrape_complete" Document.asWord fun m v => { m with scrapeComplete := v },
       .of "scrape_incomplete" Document.asWord fun m v => { m with scrapeIncomplete := v },
       .of "scrape_downloaded" Document.asWord fun m v => { m with scrapeDownloaded := v }]
    start := ⟨"", 0, false, 0, 0, 0⟩
    refusesUnknown := false }

def ofDocument (d : Document) : Json.Decoded TrackerManifest :=
  Prod.fst <$> shape.decode d

end TrackerManifest

namespace DownloadManifest

def default : DownloadManifest :=
  { name := ""
    hash := ""
    localId := none
    directory := ""
    isMultiFile := false
    chunkSize := none
    files := []
    peers := []
    trackers := []
    isPrivate := false
    isActive := false
    priority := none
    connection := none
    upTotal := 0
    bytesDone := 0
    creationDate := 0
    custom := []
    views := []
    bitfield := none
    isPexDisabled := false }

def shape : RecordShape DownloadManifest :=
  { name := "DownloadManifest"
    fields :=
      [.of "name" Document.asString fun m v => { m with name := v },
       .of "hash" Document.asString fun m v => { m with hash := v },
       .of "local_id" (Document.asOption Document.asString) fun m v => { m with localId := v },
       .of "directory" Document.asString fun m v => { m with directory := v },
       .of "multi_file" Document.asBool fun m v => { m with isMultiFile := v },
       .of "chunk_size" (Document.asOption Document.asWord) fun m v => { m with chunkSize := v },
       .of "files" (Document.asList FileManifest.ofDocument) fun m v => { m with files := v },
       .of "peers" (Document.asList PeerManifest.ofDocument) fun m v => { m with peers := v },
       .of "trackers" (Document.asList TrackerManifest.ofDocument)
        fun m v => { m with trackers := v },
       .of "private" Document.asBool fun m v => { m with isPrivate := v },
       .of "active" Document.asBool fun m v => { m with isActive := v },
       .of "priority" (Document.asOption Document.asWord) fun m v => { m with priority := v },
       .of "connection" (Document.asOption Document.asString) fun m v => { m with connection := v },
       .of "up_total" Document.asWord fun m v => { m with upTotal := v },
       .of "bytes_done" Document.asWord fun m v => { m with bytesDone := v },
       .of "creation_date" Document.asWord fun m v => { m with creationDate := v },
       .of "custom" Document.asTextMap fun m v => { m with custom := v },
       .of "views" (Document.asList Document.asString) fun m v => { m with views := v },
       .of "bitfield" (Document.asOption Document.asString) fun m v => { m with bitfield := v },
       .of "pex_disabled" Document.asBool fun m v => { m with isPexDisabled := v }]
    start := default
    refusesUnknown := false }

def ofDocument (d : Document) : Json.Decoded DownloadManifest :=
  Prod.fst <$> shape.decode d

end DownloadManifest

namespace SessionManifest

def shape : RecordShape SessionManifest :=
  { name := "SessionManifest"
    fields :=
      [.of "downloads" (Document.asList DownloadManifest.ofDocument)
        fun _ v => { downloads := v }]
    start := ⟨[]⟩
    refusesUnknown := false }

def ofDocument (d : Document) : Json.Decoded SessionManifest :=
  Prod.fst <$> shape.decode d

/-- Fields that are skipped over may nest to any depth. -/
def ofText (text : String) : Json.Decoded SessionManifest :=
  (Json.Reading.ofText text.length text).decode ofDocument

end SessionManifest

/-! ## Writing -/

namespace FileManifest

def toDocument (m : FileManifest) : Document :=
  .record
    [("path", .string m.path), ("size", .int m.size.toInt),
     ("completed_chunks", .int m.completedChunks.toInt),
     ("priority", .ofOption (fun w => .int w.toInt) m.priority)]

end FileManifest

namespace PeerManifest

def toDocument (m : PeerManifest) : Document :=
  .record
    [("address", .string m.address), ("port", .int m.port.toNat),
     ("client_version", .string m.clientVersion), ("id", .ofOption .string m.id),
     ("up_rate", .int m.upRate.toInt), ("down_rate", .int m.downRate.toInt),
     ("encrypted", .bool m.isEncrypted), ("incoming", .bool m.isIncoming),
     ("completed_percent", .int m.completedPercent.toInt)]

end PeerManifest

namespace TrackerManifest

def toDocument (m : TrackerManifest) : Document :=
  .record
    [("url", .string m.url), ("group", .int m.group.toInt), ("disabled", .bool m.isDisabled),
     ("scrape_complete", .int m.scrapeComplete.toInt),
     ("scrape_incomplete", .int m.scrapeIncomplete.toInt),
     ("scrape_downloaded", .int m.scrapeDownloaded.toInt)]

end TrackerManifest

namespace DownloadManifest

def toDocument (m : DownloadManifest) : Document :=
  .record
    [("name", .string m.name), ("hash", .string m.hash),
     ("local_id", .ofOption .string m.localId), ("directory", .string m.directory),
     ("multi_file", .bool m.isMultiFile),
     ("chunk_size", .ofOption (fun w => .int w.toInt) m.chunkSize),
     ("files", .list (m.files.map FileManifest.toDocument)),
     ("peers", .list (m.peers.map PeerManifest.toDocument)),
     ("trackers", .list (m.trackers.map TrackerManifest.toDocument)),
     ("private", .bool m.isPrivate), ("active", .bool m.isActive),
     ("priority", .ofOption (fun w => .int w.toInt) m.priority),
     ("connection", .ofOption .string m.connection), ("up_total", .int m.upTotal.toInt),
     ("bytes_done", .int m.bytesDone.toInt), ("creation_date", .int m.creationDate.toInt),
     ("custom", .record (m.custom.map fun entry => (entry.1, .string entry.2))),
     ("views", .list (m.views.map .string)), ("bitfield", .ofOption .string m.bitfield),
     ("pex_disabled", .bool m.isPexDisabled)]

end DownloadManifest

def SessionManifest.toDocument (m : SessionManifest) : Document :=
  .record [("downloads", .list (m.downloads.map DownloadManifest.toDocument))]

def SessionManifest.toJson (m : SessionManifest) : String :=
  m.toDocument.render

end TorrentControl
