import Mathlib.Data.List.Forall2
import TorrentControl.Proofs.Text.Hex
import TorrentControl.Proofs.Variables

/-! # What a description yields

A description has texts that stand for something else: digests, a bitfield, a connection type. They are
read one after the other, so the first one that is not legible is the error that is met. Once they are
read nothing else can fail. What is built has what the texts spell and what the other fields say, the
defaults of what is left out, and for the rest what a fresh download has. -/

namespace TorrentControl

/-! ## Checks one after the other -/

section Reports

variable {ε α β : Type} {faults more : List ε} {P : α → Prop} {Q : β → Prop} {x : Except ε α}

/-- The outcome is the first fault, or a result with the property if there are no faults. -/
def Reports (faults : List ε) (P : α → Prop) : Except ε α → Prop
  | .ok a => faults = [] ∧ P a
  | .error e => faults.head? = some e

theorem reports_ok {a : α} (h : P a) : Reports ([] : List ε) P (.ok a) :=
  ⟨rfl, h⟩

theorem Reports.eq_error_iff (h : Reports faults P x) (e : ε) :
    x = .error e ↔ faults.head? = some e := by
  cases x with
  | error first => exact ⟨fun heq => Except.error.inj heq ▸ h,
      fun he => congrArg _ (Option.some.inj (h.symm.trans he))⟩
  | ok a =>
    obtain ⟨rfl, -⟩ := h
    exact ⟨nofun, nofun⟩

theorem Reports.exists_ok_iff (h : Reports faults P x) : (∃ a, x = .ok a) ↔ faults = [] := by
  cases x with
  | error e => exact ⟨nofun, fun hnil => nomatch (congrArg List.head? hnil).symm.trans h⟩
  | ok a => exact ⟨fun _ => h.1, fun _ => ⟨a, rfl⟩⟩

theorem Reports.of_ok {a : α} (h : Reports faults P x) (hx : x = .ok a) : P a := by
  subst hx
  exact h.2

theorem Reports.bind {f : α → Except ε β} (h : Reports faults P x)
    (hf : ∀ a, P a → Reports more Q (f a)) : Reports (faults ++ more) Q (x >>= f) := by
  cases x with
  | error e =>
    change (faults ++ more).head? = some e
    rw [List.head?_append, show faults.head? = some e from h]
    rfl
  | ok a =>
    obtain ⟨rfl, ha⟩ := h
    exact hf a ha

/-- Of several checks alike, the first that fails is the one that is met. -/
theorem Reports.mapM {faults : α → List ε} {R : α → β → Prop} {f : α → Except ε β}
    (h : ∀ a, Reports (faults a) (R a) (f a)) (as : List α) :
    Reports (as.flatMap faults) (List.Forall₂ R as) (as.mapM f) := by
  induction as with
  | nil => exact reports_ok .nil
  | cons a rest ih =>
    rw [List.mapM_cons, List.flatMap_cons]
    refine (h a).bind fun b hb => ?_
    rw [← List.append_nil (rest.flatMap faults)]
    exact ih.bind fun bs hbs => reports_ok (.cons hb hbs)

end Reports

/-! ## Texts that stand for something -/

/-- There are two digits for each byte. -/
def Text.Hex.Legible (text : String) : Prop :=
  text.length % 2 = 0 ∧ ∀ c ∈ text.toList, (digitValue? c).isSome

/-- There are two digits for each of twenty bytes. -/
def Digest.Legible (text : String) : Prop :=
  text.length = 40 ∧ ∀ c ∈ text.toList, (Text.Hex.digitValue? c).isSome

instance (text : String) : Decidable (Text.Hex.Legible text) :=
  inferInstanceAs (Decidable (_ ∧ _))

instance (text : String) : Decidable (Digest.Legible text) :=
  inferInstanceAs (Decidable (_ ∧ _))

/-- The fault of a check that may fail. -/
def faultUnless (p : Prop) [Decidable p] (fault : ManifestError) : List ManifestError :=
  if p then [] else [fault]

theorem faultUnless_eq_nil {p : Prop} [Decidable p] {fault : ManifestError} :
    faultUnless p fault = [] ↔ p := by
  unfold faultUnless
  split <;> simp [*]

/-- A text is either read, and legible then, or the fault is met. -/
theorem reports_read {α : Type} {read : Option α} {p : Prop} [Decidable p] {P : α → Prop}
    {fault : ManifestError} {x : Except ManifestError α} (hp : read.isSome ↔ p)
    (hok : ∀ a, read = some a → x = .ok a ∧ P a) (herror : read = none → x = .error fault) :
    Reports (faultUnless p fault) P x := by
  cases read with
  | none =>
    have hnot : ¬ p := fun h => nomatch hp.2 h
    rw [herror rfl, faultUnless, if_neg hnot]
    rfl
  | some a =>
    obtain ⟨rfl, ha⟩ := hok a rfl
    exact ⟨faultUnless_eq_nil.2 (hp.1 rfl), ha⟩

theorem reports_readDigest (download : String) (field : DigestField) (text : String) :
    Reports (faultUnless (Digest.Legible text) (.invalidHash download field text))
      (Digest.SpelledBy · text) (readDigest download field text) := by
  unfold readDigest
  refine reports_read Digest.isSome_ofHex?_iff (fun digest h => ?_) fun h => by rw [h]
  exact ⟨by rw [h], Digest.ofHex?_eq_some_iff.1 h⟩

/-! ## Files, peers and trackers -/

/-- The file has the described path, without empty components, and normal priority if none is
described. -/
structure FileManifest.Yields (m : FileManifest) (file : File) : Prop where
  path : file.path = ((Text.split '/' m.path.toList).filter (· ≠ [])).map String.ofList
  size : file.size = m.size
  completedChunks : file.completedChunks = m.completedChunks
  priority : file.priority = m.priority.getD 1

/-- The tracker speaks the protocol of its address and was not asked for anything yet. -/
structure TrackerManifest.Yields (m : TrackerManifest) (tracker : Tracker) : Prop where
  url : tracker.url = m.url
  group : tracker.group = m.group
  protocol : tracker.protocol = .ofUrl m.url
  isEnabled : tracker.isEnabled = !m.isDisabled
  scrapeComplete : tracker.scrapeComplete = m.scrapeComplete
  scrapeIncomplete : tracker.scrapeIncomplete = m.scrapeIncomplete
  scrapeDownloaded : tracker.scrapeDownloaded = m.scrapeDownloaded

/-- The peer has the described id, or zero, and has transferred nothing yet. -/
structure PeerManifest.Yields (m : PeerManifest) (peer : Peer) : Prop where
  address : peer.address = m.address
  port : peer.port = m.port
  clientVersion : peer.clientVersion = m.clientVersion
  id : m.id.elim (peer.id = .zero) peer.id.SpelledBy
  up : peer.up = ⟨m.upRate, 0⟩
  down : peer.down = ⟨m.downRate, 0⟩
  isEncrypted : peer.isEncrypted = m.isEncrypted
  isIncoming : peer.isIncoming = m.isIncoming
  completedPercent : peer.completedPercent = m.completedPercent

theorem FileManifest.yields_build (m : FileManifest) : m.Yields m.build where
  path := rfl
  size := rfl
  completedChunks := rfl
  priority := rfl

theorem TrackerManifest.yields_build (m : TrackerManifest) : m.Yields m.build where
  url := rfl
  group := rfl
  protocol := rfl
  isEnabled := rfl
  scrapeComplete := rfl
  scrapeIncomplete := rfl
  scrapeDownloaded := rfl

/-- A digest that may be left out. -/
def digestFaults (download : String) (field : DigestField) (digits : Option String) :
    List ManifestError :=
  digits.elim [] fun text =>
    faultUnless (Digest.Legible text) (.invalidHash download field text)

theorem reports_peer (download : String) (m : PeerManifest) :
    Reports (digestFaults download .peerId m.id) m.Yields (m.build download) := by
  unfold PeerManifest.build digestFaults
  cases hid : m.id with
  | none => exact reports_ok ⟨rfl, rfl, rfl, by rw [hid]; rfl, rfl, rfl, rfl, rfl, rfl⟩
  | some text =>
    dsimp only
    rw [← List.append_nil (Option.elim _ _ _)]
    refine (reports_readDigest download .peerId text).bind fun id hspelled => reports_ok ?_
    exact ⟨rfl, rfl, rfl, by rwa [hid], rfl, rfl, rfl, rfl, rfl⟩

/-! ## Downloads -/

namespace DownloadManifest

/-- The faults of a description, in the order in which its texts are read. -/
def faults (m : DownloadManifest) : List ManifestError :=
  faultUnless (Digest.Legible m.hash) (.invalidHash m.name .hash m.hash) ++
    (digestFaults m.name .localId m.localId ++
      ((m.peers.flatMap fun peer => digestFaults m.name .peerId peer.id) ++
        ((m.bitfield.elim [] fun text =>
            faultUnless (Text.Hex.Legible text) (.invalidBitfield m.name text)) ++
          (m.connection.elim [] fun name =>
            faultUnless (name ∈ ["leech", "seed", "initial_seed"])
              (.unknownConnection m.name name)))))

/-- All texts of the description can be read. -/
structure Legible (m : DownloadManifest) : Prop where
  hash : Digest.Legible m.hash
  localId : ∀ text ∈ m.localId, Digest.Legible text
  peers : ∀ peer ∈ m.peers, ∀ text ∈ peer.id, Digest.Legible text
  bitfield : ∀ text ∈ m.bitfield, Text.Hex.Legible text
  connection : ∀ name ∈ m.connection, name ∈ ["leech", "seed", "initial_seed"]

theorem elim_faultUnless_eq_nil {p : String → Prop} [DecidablePred p]
    {fault : String → ManifestError} {given : Option String} :
    (given.elim [] fun text => faultUnless (p text) (fault text)) = [] ↔ ∀ text ∈ given, p text := by
  cases given with
  | none => simp
  | some text => simp [faultUnless_eq_nil]

theorem faults_eq_nil_iff {m : DownloadManifest} : m.faults = [] ↔ m.Legible := by
  simp only [faults, digestFaults, List.append_eq_nil_iff, List.flatMap_eq_nil_iff,
    faultUnless_eq_nil, elim_faultUnless_eq_nil]
  exact ⟨fun ⟨hash, localId, peers, bitfield, connection⟩ =>
      ⟨hash, localId, peers, bitfield, connection⟩,
    fun h => ⟨h.hash, h.localId, h.peers, h.bitfield, h.connection⟩⟩

/-- What the texts of a description spell, with the defaults of those that are left out. -/
structure Spells (m : DownloadManifest) (said : Reading) : Prop where
  infoHash : said.infoHash.SpelledBy m.hash
  localId : m.localId.elim (said.localId = .zero) said.localId.SpelledBy
  peers : List.Forall₂ PeerManifest.Yields m.peers said.peers
  bitfield : m.bitfield.elim (said.bitfield = []) fun text =>
    text.toList.map Char.toUpper = (Text.Hex.encode .upper said.bitfield).toList
  connection : m.connection.elim (said.connection = .leech) (said.connection.name = ·)

theorem reports_localId (m : DownloadManifest) : Reports (digestFaults m.name .localId m.localId)
    (fun id => m.localId.elim (id = .zero) id.SpelledBy) m.readLocalId := by
  unfold readLocalId digestFaults
  cases m.localId with
  | none => exact reports_ok rfl
  | some text => exact reports_readDigest m.name .localId text

theorem reports_bitfield (m : DownloadManifest) :
    Reports (m.bitfield.elim [] fun text =>
        faultUnless (Text.Hex.Legible text) (.invalidBitfield m.name text))
      (fun bytes => m.bitfield.elim (bytes = []) fun text =>
        text.toList.map Char.toUpper = (Text.Hex.encode .upper bytes).toList) m.readBitfield := by
  unfold readBitfield
  cases m.bitfield with
  | none => exact reports_ok rfl
  | some text =>
    have hlegible : (Text.Hex.decode text).isSome ↔ Text.Hex.Legible text := by
      rw [Text.Hex.decode, Text.Hex.decodeChars_isSome_iff, String.length_toList]
      rfl
    refine reports_read hlegible (fun bytes h => ⟨by simp only [h], ?_⟩) fun h => by simp only [h]
    exact Text.Hex.decode_eq_some_iff.1 h

theorem reports_connection (m : DownloadManifest) :
    Reports (m.connection.elim [] fun name =>
        faultUnless (name ∈ ["leech", "seed", "initial_seed"]) (.unknownConnection m.name name))
      (fun kind => m.connection.elim (kind = .leech) (kind.name = ·)) m.readConnection := by
  unfold readConnection
  cases m.connection with
  | none => exact reports_ok rfl
  | some name =>
    have hknown : (ConnectionType.ofName? name).isSome ↔
        name ∈ ["leech", "seed", "initial_seed"] := by
      rw [ConnectionType.ofName?, List.find?_isSome]
      simp only [ConnectionType.all, ConnectionType.name, List.mem_cons, List.not_mem_nil, or_false,
        exists_eq_or_imp, exists_eq_left, beq_iff_eq, @eq_comm _ name]
    refine reports_read hknown (fun kind h => ⟨by simp only [h], ?_⟩) fun h => by simp only [h]
    have hkind := List.find?_some (p := fun c : ConnectionType => c.name == name) h
    exact eq_of_beq hkind

theorem reports_readAll (m : DownloadManifest) : Reports m.faults m.Spells m.read := by
  unfold read faults
  refine (reports_readDigest _ _ _).bind fun infoHash hhash => ?_
  refine m.reports_localId.bind fun localId hid => ?_
  refine (Reports.mapM (reports_peer m.name) m.peers).bind fun peers hpeers => ?_
  refine m.reports_bitfield.bind fun bitfield hbitfield => ?_
  rw [← List.append_nil (Option.elim _ _ _)]
  refine m.reports_connection.bind fun connection hkind => reports_ok ?_
  exact ⟨hhash, hid, hpeers, hbitfield, hkind⟩

end DownloadManifest

/-! ## Seeding -/

namespace Download

/-- The download with these variables, and no others. -/
def withVariables (d : Download) (values : KeyMap Value) : Download :=
  { d with state := .map [(sectionName, .map values)] }

theorem find?_section (values : KeyMap Value) :
    KeyMap.find? [(sectionName, Value.map values)] sectionName = some (.map values) := by
  rw [KeyMap.find?_cons, if_pos rfl]

theorem stateSection_withVariables (d : Download) (values : KeyMap Value) :
    (d.withVariables values).stateSection = .ok (.map values) := by
  rw [stateSection, withVariables, Value.getKey_eq_ok_iff.2 (find?_section values)]
  rfl

theorem stateVariable_withVariables (d : Download) (values : KeyMap Value) (name : String) :
    (d.withVariables values).stateVariable name =
      (KeyMap.find? values name).elim (.error (.value (.missingKey name))) .ok := by
  rw [stateVariable, stateSection_withVariables]
  change CommandError.ofValue ((Value.map values).getKey name) = _
  simp only [Value.getKey, Value.asMap, bind, Except.bind]
  cases KeyMap.find? values name <;> rfl

/-- The variables are what looking them up answers. -/
theorem find?_eq_of_stateVariable {d t : Download} {values others : KeyMap Value} {name : String}
    (h : (d.withVariables values).stateVariable name = (t.withVariables others).stateVariable name) :
    KeyMap.find? values name = KeyMap.find? others name := by
  rw [stateVariable_withVariables, stateVariable_withVariables] at h
  revert h
  cases KeyMap.find? values name <;> cases KeyMap.find? others name <;> simp

/-- Writing a variable is inserting it among the variables. -/
theorem write_withVariables (d : Download) (values : KeyMap Value) (name : String) (v : Value) :
    (d.withVariables values).write name v = d.withVariables (KeyMap.insert values name v) := by
  rw [write_of_section (stateSection_withVariables d values)]
  simp [withSection, withVariables, KeyMap.insert]

theorem Edit.run_setVariable_withVariables (name : String) (v : Value) (values : KeyMap Value)
    (d : Download) : (setVariable name v).run.run (d.withVariables values) =
      (.ok (), d.withVariables (KeyMap.insert values name v)) := by
  rw [run_setVariable ⟨values, stateSection_withVariables d values⟩, write_withVariables]

/-- A variable that is there gets another value. -/
theorem Edit.run_onVariable_withVariables {name : String}
    {change : Value → Except ValueError Value} {values : KeyMap Value} {old : Value} (new : Value)
    (hfound : KeyMap.find? values name = some old) (hchange : change old = .ok new)
    (d : Download) : (onVariable name change).run.run (d.withVariables values) =
      (.ok (), d.withVariables (KeyMap.insert values name new)) := by
  have hold : (d.withVariables values).stateVariable name = .ok old := by
    rw [stateVariable_withVariables, hfound]
    rfl
  rw [run_onVariable hold hchange, write_withVariables]

end Download

namespace DownloadManifest

open Download

/-- The custom fields of a description as values. -/
def customFields (m : DownloadManifest) : KeyMap Value :=
  KeyMap.ofList (m.custom.map fun entry => (entry.1, .text entry.2))

/-- The variables that are seeded: whether the download is started, custom fields, and views. -/
def seedVariables (m : DownloadManifest) (values : KeyMap Value) : KeyMap Value :=
  let started := if m.isActive then KeyMap.insert values "state" (.int 1) else values
  KeyMap.insert (KeyMap.insert started "custom" (.map m.customFields)) "views"
    (.list (m.views.map .text))

theorem run_seed {m : DownloadManifest} {values : KeyMap Value}
    (hcustom : KeyMap.find? values "custom" = some (.map []))
    (hviews : KeyMap.find? values "views" = some (.list [])) (d : Download) :
    m.seed.run.run (d.withVariables values) = (.ok (), d.withVariables (m.seedVariables values)) := by
  -- custom fields and views are seeded alike, whether the download is started or not
  have hrest (started : KeyMap Value) (hcustom : KeyMap.find? started "custom" = some (.map []))
      (hviews : KeyMap.find? started "views" = some (.list [])) :
      (do
        Download.Edit.onVariable "custom" fun fields => do
          let entries ← fields.asMap
          return .map
            (m.custom.foldl (fun all entry => KeyMap.insert all entry.1 (.text entry.2)) entries)
        Download.Edit.onVariable "views" fun views => do
          return .list ((← views.asList) ++ m.views.map .text) : Download.Edit Unit).run.run
        (d.withVariables started) = (.ok (), d.withVariables
          (KeyMap.insert (KeyMap.insert started "custom" (.map m.customFields)) "views"
            (.list (m.views.map .text)))) := by
    have hfields : m.custom.foldl
        (fun all entry => KeyMap.insert all entry.1 (Value.text entry.2)) [] = m.customFields := by
      rw [customFields, KeyMap.ofList, List.foldl_map]
    have hviews' :
        KeyMap.find? (KeyMap.insert started "custom" (.map m.customFields)) "views" =
          some (.list []) := by
      rw [KeyMap.find?_insert, if_neg (by decide), hviews]
    rw [Edit.run_bind_ok (Edit.run_onVariable_withVariables (.map m.customFields) hcustom ?_ d)]
    · refine Edit.run_onVariable_withVariables _ hviews' ?_ d
      rfl
    · rw [← hfields]
      rfl
  unfold seed seedVariables
  cases m.isActive with
  | false => exact hrest values hcustom hviews
  | true =>
    dsimp only
    rw [if_pos rfl, if_pos rfl, Edit.run_bind_ok (Edit.run_setVariable_withVariables _ _ _ d)]
    refine hrest _ ?_ ?_
    · rw [KeyMap.find?_insert, if_neg (by decide), hcustom]
    · rw [KeyMap.find?_insert, if_neg (by decide), hviews]

/-! ## What is built -/

/-- The download is the one that is described: with the described files, peers, trackers and options, the
defaults of those that are left out, the seeded variables, and otherwise like a fresh one. -/
structure Yields (m : DownloadManifest) (d : Download) : Prop where
  texts : m.Spells ⟨d.infoHash, d.localId, d.peers, d.bitfield, d.connection⟩
  name : d.name = m.name
  files : List.Forall₂ FileManifest.Yields m.files d.files.files
  layout : d.files = { d.files with
    directory := m.directory
    isMultiFile := m.isMultiFile
    chunkSize := m.chunkSize.getD 262144
    maxFileSize := 0 }
  trackers : List.Forall₂ TrackerManifest.Yields m.trackers d.trackers.trackers
  announcing : d.trackers = { d.trackers with numWant := -1, focus := 0 }
  isPrivate : d.isPrivate = m.isPrivate
  isActive : d.isActive = m.isActive
  isOpen : d.isOpen = m.isActive
  priority : d.priority = m.priority.getD 2
  up : d.up = ⟨0, m.upTotal⟩
  bytesDone : d.bytesDone = m.bytesDone
  creationDate : d.creationDate = m.creationDate
  isPexEnabled : d.isPexEnabled = !m.isPexDisabled
  peersAccounted : d.peersAccounted = Number.Word.ofCount m.peers.length
  peersComplete : d.peersComplete =
    Number.Word.ofCount (m.peers.countP fun peer => decide (100 ≤ peer.completedPercent.toInt))
  started : d.stateVariable "state" = .ok (.int (if m.isActive then 1 else 0))
  custom : d.stateVariable "custom" = .ok (.map m.customFields)
  views : d.stateVariable "views" = .ok (.list (m.views.map .text))
  unseeded : ∀ name ∉ ["state", "custom", "views"],
    d.stateVariable name = (fresh m.name d.infoHash).stateVariable name
  ordered : ∃ values : KeyMap Value, d.state = .map [(sectionName, .map values)] ∧ values.Ordered
  others : d = { fresh d.name d.infoHash with
    localId := d.localId
    files := d.files
    peers := d.peers
    trackers := d.trackers
    state := d.state
    priority := d.priority
    connection := d.connection
    isOpen := d.isOpen
    isActive := d.isActive
    isPrivate := d.isPrivate
    isPexEnabled := d.isPexEnabled
    bitfield := d.bitfield
    up := d.up
    bytesDone := d.bytesDone
    creationDate := d.creationDate
    peersComplete := d.peersComplete
    peersAccounted := d.peersAccounted }

/-- The variables of a fresh download. -/
theorem initialSection_eq : ∃ values : KeyMap Value, initialSection = .map values ∧ values.Ordered ∧
    KeyMap.find? values "state" = some (.int 0) ∧ KeyMap.find? values "custom" = some (.map []) ∧
      KeyMap.find? values "views" = some (.list []) := by
  have started : initialSection.getKey "state" = .ok (.int 0) := by decide
  have custom : initialSection.getKey "custom" = .ok (.map []) := by decide
  have views : initialSection.getKey "views" = .ok (.list []) := by decide
  exact ⟨_, rfl, KeyMap.ordered_ofList _, Value.getKey_eq_ok_iff.1 started,
    Value.getKey_eq_ok_iff.1 custom, Value.getKey_eq_ok_iff.1 views⟩

/-- What is looked up in seeded variables. -/
theorem find?_seedVariables (m : DownloadManifest) {values : KeyMap Value}
    (hstate : KeyMap.find? values "state" = some (.int 0)) (name : String) :
    KeyMap.find? (m.seedVariables values) name =
      if name = "views" then some (.list (m.views.map .text))
      else if name = "custom" then some (.map m.customFields)
      else if name = "state" then some (.int (if m.isActive then 1 else 0))
      else KeyMap.find? values name := by
  have hstarted : KeyMap.find?
      (if m.isActive then KeyMap.insert values "state" (.int 1) else values) name =
        if name = "state" then some (.int (if m.isActive then 1 else 0))
        else KeyMap.find? values name := by
    by_cases hname : name = "state"
    · subst hname
      cases m.isActive <;> simp [KeyMap.find?_insert, hstate]
    · cases m.isActive <;> simp [KeyMap.find?_insert, hname, Ne.symm hname]
  rw [seedVariables, KeyMap.find?_insert, KeyMap.find?_insert, hstarted]
  simp only [@eq_comm _ _ name]

theorem countP_complete {download : List PeerManifest} {peers : List Peer}
    (h : List.Forall₂ PeerManifest.Yields download peers) :
    peers.countP (fun peer => decide (100 ≤ peer.completedPercent.toInt)) =
      download.countP fun peer => decide (100 ≤ peer.completedPercent.toInt) := by
  induction h with
  | nil => rfl
  | cons hpeer _ ih => rw [List.countP_cons, List.countP_cons, ih, hpeer.completedPercent]

/-- **What was read is laid out and seeded without fail.** -/
theorem reports_finish {m : DownloadManifest} {said : Reading} (h : m.Spells said) :
    Reports [] m.Yields (m.finish (m.layOut said)) := by
  obtain ⟨values, hsection, hordered, hstate, hcustom, hviews⟩ := initialSection_eq
  have hstart : m.layOut said = (m.layOut said).withVariables values := by
    rw [withVariables, ← hsection]
    rfl
  have hfresh : fresh m.name said.infoHash = (fresh m.name said.infoHash).withVariables values := by
    rw [withVariables, ← hsection]
    rfl
  have hfound (name : String) := find?_seedVariables m hstate name
  have hvariable (name : String) (v : Value)
      (hv : KeyMap.find? (m.seedVariables values) name = some v) :
      ((m.layOut said).withVariables (m.seedVariables values)).stateVariable name = .ok v :=
    stateVariable_ok (stateSection_withVariables _ _) hv
  rw [finish, hstart, run_seed hcustom hviews]
  refine reports_ok ?_
  constructor
  case texts => exact h
  case started => exact hvariable _ _ (by rw [hfound]; rfl)
  case custom => exact hvariable _ _ (by rw [hfound]; rfl)
  case views => exact hvariable _ _ (by rw [hfound]; rfl)
  case unseeded =>
    intro name hname
    change _ = (fresh m.name said.infoHash).stateVariable name
    rw [hfresh, stateVariable_withVariables, stateVariable_withVariables]
    simp only [List.mem_cons, List.not_mem_nil, or_false, not_or] at hname
    rw [hfound, if_neg hname.2.2, if_neg hname.2.1, if_neg hname.1]
  case ordered =>
    refine ⟨_, rfl, KeyMap.Ordered.insert (KeyMap.Ordered.insert ?_ _ _) _ _⟩
    split
    · exact hordered.insert _ _
    · exact hordered
  case files => exact List.forall₂_map_right_iff.2 (List.forall₂_same.2 fun m _ => m.yields_build)
  case trackers =>
    exact List.forall₂_map_right_iff.2 (List.forall₂_same.2 fun m _ => m.yields_build)
  case peersAccounted => exact congrArg Number.Word.ofCount h.peers.length_eq.symm
  case peersComplete => exact congrArg Number.Word.ofCount (countP_complete h.peers)
  all_goals rfl

/-- **A description is built, or the first of its faults is met.** -/
theorem reports_build (m : DownloadManifest) : Reports m.faults m.Yields m.build := by
  rw [build_eq, ← List.append_nil m.faults]
  exact m.reports_readAll.bind fun said hsaid => reports_finish hsaid

/-- No fault of a description is one of the state. -/
theorem faults_ne_state {m : DownloadManifest} {download : String} {source : CommandError} :
    .state download source ∉ m.faults := by
  have hunless {p : Prop} [Decidable p] {fault : ManifestError} (hne : fault ≠ .state download source) :
      .state download source ∉ faultUnless p fault := by
    unfold faultUnless
    split
    · exact List.not_mem_nil
    · exact fun h => hne (List.mem_singleton.1 h).symm
  have hdigest (field : DigestField) (digits : Option String) :
      .state download source ∉ digestFaults m.name field digits := by
    cases digits with
    | none => exact List.not_mem_nil
    | some text => exact hunless nofun
  simp only [faults, List.mem_append, List.mem_flatMap, not_or, not_exists, not_and]
  refine ⟨hunless nofun, hdigest _ _, fun peer _ => hdigest _ _, ?_, ?_⟩
  · cases m.bitfield with
    | none => exact List.not_mem_nil
    | some text => exact hunless nofun
  · cases m.connection with
    | none => exact List.not_mem_nil
    | some name => exact hunless nofun

end DownloadManifest

/-! ## One download for a description -/

theorem FileManifest.rightUnique_yields : Relator.RightUnique FileManifest.Yields := by
  rintro m ⟨_, _, _, _⟩ ⟨_, _, _, _⟩ ⟨rfl, rfl, rfl, rfl⟩ ⟨rfl, rfl, rfl, rfl⟩
  rfl

theorem TrackerManifest.rightUnique_yields : Relator.RightUnique TrackerManifest.Yields := by
  rintro m ⟨_, _, _, _, _, _, _⟩ ⟨_, _, _, _, _, _, _⟩ ⟨rfl, rfl, rfl, rfl, rfl, rfl, rfl⟩
    ⟨rfl, rfl, rfl, rfl, rfl, rfl, rfl⟩
  rfl

/-- What is read, or is the default, is determined if what is read is. -/
theorem eq_of_elim {α : Type} {given : Option String} {default a b : α} {R : α → String → Prop}
    (ha : given.elim (a = default) (R a)) (hb : given.elim (b = default) (R b))
    (hR : ∀ text, R a text → R b text → a = b) : a = b := by
  cases given with
  | none => exact ha.trans hb.symm
  | some text => exact hR text ha hb

theorem PeerManifest.rightUnique_yields : Relator.RightUnique PeerManifest.Yields := by
  rintro m ⟨_, _, _, _, _, _, _, _, _⟩ ⟨_, _, _, _, _, _, _, _, _⟩
    ⟨rfl, rfl, rfl, hid, rfl, rfl, rfl, rfl, rfl⟩ ⟨rfl, rfl, rfl, hid', rfl, rfl, rfl, rfl, rfl⟩
  obtain rfl := eq_of_elim hid hid' fun _ => Digest.SpelledBy.unique
  rfl

namespace DownloadManifest

open Download

variable {m : DownloadManifest}

theorem Spells.unique {said other : Reading} (h : m.Spells said) (ho : m.Spells other) :
    said = other := by
  have hbitfield := eq_of_elim
    (R := fun bytes text => text.toList.map Char.toUpper = (Text.Hex.encode .upper bytes).toList)
    h.bitfield ho.bitfield fun text hs hs' => Option.some.inj
      ((Text.Hex.decode_eq_some_iff.2 hs).symm.trans (Text.Hex.decode_eq_some_iff.2 hs'))
  have hkind := eq_of_elim (R := fun kind name => ConnectionType.name kind = name)
    h.connection ho.connection fun name hs hs' => by
      have hnames : ∀ a b : ConnectionType, a.name = b.name → a = b := by
        intro a b
        cases a <;> cases b <;> decide
      exact hnames _ _ (hs.trans hs'.symm)
  have hid := eq_of_elim h.localId ho.localId fun _ => Digest.SpelledBy.unique
  have hhash := h.infoHash.unique ho.infoHash
  have hpeers := List.right_unique_forall₂' PeerManifest.rightUnique_yields h.peers ho.peers
  cases said
  cases other
  simp only at hbitfield hkind hid hhash hpeers
  subst hbitfield hkind hid hhash hpeers
  rfl

/-- The state is that of the variables. -/
theorem Yields.state_eq {d t : Download} (h : m.Yields d) (ht : m.Yields t)
    (hhash : d.infoHash = t.infoHash) : d.state = t.state := by
  obtain ⟨values, hvalues, hordered⟩ := h.ordered
  obtain ⟨others, hothers, hordered'⟩ := ht.ordered
  have hd : d.withVariables values = d := by rw [withVariables, ← hvalues]
  have ht' : t.withVariables others = t := by rw [withVariables, ← hothers]
  have hsame (name : String) : d.stateVariable name = t.stateVariable name := by
    by_cases hname : name ∈ ["state", "custom", "views"]
    · simp only [List.mem_cons, List.not_mem_nil, or_false] at hname
      rcases hname with rfl | rfl | rfl
      · exact h.started.trans ht.started.symm
      · exact h.custom.trans ht.custom.symm
      · exact h.views.trans ht.views.symm
    · rw [h.unseeded name hname, ht.unseeded name hname, hhash]
  have heq : values = others := hordered.ext hordered' fun name =>
    find?_eq_of_stateVariable (d := d) (t := t) (by rw [hd, ht', hsame])
  rw [hvalues, hothers, heq]

/-- **A description yields one download.** -/
theorem Yields.unique {d t : Download} (h : m.Yields d) (ht : m.Yields t) : d = t := by
  have htexts := h.texts.unique ht.texts
  simp only [Reading.mk.injEq] at htexts
  obtain ⟨hhash, hid, hpeers, hbitfield, hkind⟩ := htexts
  have hfiles : d.files = t.files := by
    rw [h.layout, ht.layout]
    simp only [List.right_unique_forall₂' FileManifest.rightUnique_yields h.files ht.files]
  have htrackers : d.trackers = t.trackers := by
    rw [h.announcing, ht.announcing]
    simp only [List.right_unique_forall₂' TrackerManifest.rightUnique_yields h.trackers ht.trackers]
  rw [h.others, ht.others, h.name, ht.name, hhash, hid, hpeers, hbitfield, hkind,
    h.state_eq ht hhash, hfiles, htrackers, h.isPrivate, ht.isPrivate, h.isActive, ht.isActive,
    h.isOpen, ht.isOpen, h.priority, ht.priority, h.up, ht.up, h.bytesDone, ht.bytesDone,
    h.creationDate, ht.creationDate, h.isPexEnabled, ht.isPexEnabled, h.peersAccounted,
    ht.peersAccounted, h.peersComplete, ht.peersComplete]

end DownloadManifest

end TorrentControl
