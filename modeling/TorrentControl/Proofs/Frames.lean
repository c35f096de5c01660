import TorrentControl.Proofs.Readings
import TorrentControl.Proofs.Sparing

/-! # What a setting changes

Each setting is shown by one reading, and few other readings depend on it. Where it goes through, that
reading shows what was set, and all that does not depend on the setting is shown as before. -/

namespace TorrentControl

open Download

/-! ## Frames -/

/-- A sight depends on a reading: it is the reading, or it is a custom field and the reading is that of
the variable that holds all of them. -/
def Sight.DependsOn : Sight → DownloadReading → Prop
  | .reading r, touched => r = touched
  | .custom _, touched => touched = .variableNamed "custom"
  | _, _ => False

/-- Of two downloads only these readings differ, if any, and the parts are the same. -/
structure Download.Frames (touched : List DownloadReading) (a b : Download) : Prop where
  readings : ∀ r ∉ touched, r.read b = r.read a
  infoHash : b.infoHash = a.infoHash
  files : b.files.files = a.files.files
  chunkSize : b.files.chunkSize = a.files.chunkSize
  peers : b.peers = a.peers
  trackers : b.trackers.trackers = a.trackers.trackers

theorem Download.customField?_congr {a b : Download}
    (h : b.stateVariable "custom" = a.stateVariable "custom") (key : String) :
    b.customField? key = a.customField? key := by
  simp only [customField?, h]

theorem FileReading.read_congr {a b : FileList} (hfiles : b.files = a.files)
    (hchunk : b.chunkSize = a.chunkSize) (r : FileReading) (i : Nat) : r.read b i = r.read a i := by
  obtain ⟨_, _, _, _, _⟩ := a
  obtain ⟨_, _, _, _, _⟩ := b
  cases hfiles
  cases hchunk
  cases r <;> rfl

/-- **What depends on nothing that was touched is seen as before.** -/
theorem Download.Frames.same {touched : List DownloadReading} {a b : Download}
    (h : Frames touched a b) {sight : Sight} (hfree : ∀ r ∈ touched, ¬ sight.DependsOn r) :
    sight.Same a b := by
  cases sight with
  | reading r => exact h.readings r fun hr => hfree r hr rfl
  | custom key =>
    exact customField?_congr (h.readings (.variableNamed "custom") fun hr => hfree _ hr rfl) key
  | fileCount => exact congrArg List.length h.files
  | file i r =>
    rw [Sight.Same, h.files, FileReading.read_congr h.files h.chunkSize]
  | peer i r => rw [Sight.Same, h.peers]
  | tracker i r => rw [Sight.Same, h.trackers]

theorem Download.Frames.same_hash {touched : List DownloadReading} {a b : Download}
    (h : Frames touched a b) : (Sight.reading .hash).Same a b := by
  simp only [Sight.Same, DownloadReading.read, hashText, h.infoHash]

/-! ## Variables -/

theorem Download.HasSection.frames_write {d : Download} (h : d.HasSection) (name : String)
    (v : Value) : Frames [.variableNamed name] d (d.write name v) := by
  obtain ⟨state, hwrite⟩ := exists_state_write d name v
  constructor
  case readings =>
    intro r hr
    cases r with
    | variableNamed other =>
      have hne : name ≠ other := fun heq => hr (by rw [heq]; exact List.mem_singleton.2 rfl)
      exact (h.stateVariable_write name other v).trans (if_neg hne)
    | _ =>
      rw [hwrite]
      rfl
  all_goals rw [hwrite]

/-! ## Custom fields -/

namespace Download

variable {d t : Download} {fields : KeyMap Value}

/-- A custom field is the text under its key. -/
theorem customField?_of_variable (h : d.stateVariable "custom" = .ok (.map fields)) (key : String) :
    d.customField? key = (KeyMap.find? fields key).bind fun v => v.asText.toOption := by
  unfold customField? Value.getKey Value.asMap
  rw [h]
  cases hfind : KeyMap.find? fields key with
  | none => simp only [bind, Except.bind, hfind]; rfl
  | some v => cases v <;> simp only [bind, Except.bind, hfind] <;> rfl

/-- What setting a custom field makes of a section: first of all there is a map of custom fields. -/
def customChange (key text : String) (values : Value) : Except ValueError Value := do
  let values ← values.insertKeyIfAbsent "custom" (.map [])
  let fields ← (← values.getKey "custom").insertKey key (.text text)
  values.replaceKey "custom" fields

theorem customChange_present {values : KeyMap Value} {found : Value}
    (h : KeyMap.find? values "custom" = some found) (key text : String) :
    customChange key text (.map values) = found.insertKey key (.text text) >>=
      (Value.map values).replaceKey "custom" := by
  have hcontains : KeyMap.contains values "custom" = true := by
    rw [KeyMap.contains_iff_find?, h]
    rfl
  have hpresent : (Value.map values).insertKeyIfAbsent "custom" (.map []) = .ok (.map values) :=
    if_pos hcontains
  rw [customChange, hpresent]
  change (do
    let fields ← (← (Value.map values).getKey "custom").insertKey key (.text text)
    (Value.map values).replaceKey "custom" fields) = _
  rw [Value.getKey_eq_ok_iff.2 h]
  rfl

theorem customChange_absent {values : KeyMap Value} (h : KeyMap.find? values "custom" = none)
    (key text : String) : customChange key text (.map values) =
      .ok (.map (KeyMap.insert values "custom" (.map [(key, .text text)]))) := by
  have hcontains : ¬ KeyMap.contains values "custom" = true := by
    rw [KeyMap.contains_iff_find?, h]
    exact Bool.false_ne_true
  have hinserted : (Value.map values).insertKeyIfAbsent "custom" (.map []) =
      .ok (.map (KeyMap.insert values "custom" (.map []))) :=
    if_neg hcontains
  have hfound : KeyMap.find? (KeyMap.insert values "custom" (.map [])) "custom" =
      some (.map []) := by
    rw [KeyMap.find?_insert, if_pos rfl]
  rw [customChange, hinserted]
  change (do
    let fields ← (← (Value.map (KeyMap.insert values "custom" (.map []))).getKey
      "custom").insertKey key (.text text)
    (Value.map (KeyMap.insert values "custom" (.map []))).replaceKey "custom" fields) = _
  rw [Value.getKey_eq_ok_iff.2 hfound]
  refine (Value.replaceKey_map hfound _).trans ?_
  rw [KeyMap.insert_insert]
  rfl

/-- The field is written into the map of custom fields, or into an empty one. -/
theorem exists_of_setCustom {key text : String} (h : (setCustom key text).run.run d = (.ok (), t)) :
    d.HasSection ∧ ∃ fields, t = d.write "custom" (.map (KeyMap.insert fields key (.text text))) ∧
      ∀ other, d.customField? other =
        (KeyMap.find? fields other).bind fun v => v.asText.toOption := by
  change (Edit.onSection (customChange key text)).run.run d = (.ok (), t) at h
  obtain ⟨old, new, hsection, hchange⟩ := Edit.exists_of_onSection h
  have written {values changed : KeyMap Value} (hsection : d.stateSection = .ok (.map values))
      (hchange : customChange key text (.map values) = .ok (.map changed)) :
      t = d.withSection changed := by
    cases (Edit.run_onSection hsection hchange).symm.trans h
    rfl
  cases old with
  | map values =>
    refine ⟨⟨values, hsection⟩, ?_⟩
    cases hfind : KeyMap.find? values "custom" with
    | none =>
      refine ⟨[], ?_, fun other => ?_⟩
      · rw [write_of_section hsection]
        exact written hsection (customChange_absent hfind key text)
      · have hmissing : d.stateVariable "custom" = .error (.value (.missingKey "custom")) := by
          rw [stateVariable_of_section hsection]
          unfold Value.getKey Value.asMap
          simp only [bind, Except.bind, hfind]
          rfl
        unfold customField?
        rw [hmissing]
        rfl
    | some found =>
      rw [customChange_present hfind] at hchange
      cases found with
      | map fields =>
        refine ⟨fields, ?_, fun other => ?_⟩
        · rw [write_of_section hsection]
          exact written hsection ((customChange_present hfind key text).trans
            (Value.replaceKey_map hfind _))
        · exact customField?_of_variable (stateVariable_ok hsection hfind) other
      | _ => cases hchange
  | _ => cases hchange

/-- **A custom field that was set is there, and the others are as before.** -/
theorem frames_setCustom {key text : String} (h : (setCustom key text).run.run d = (.ok (), t)) :
    Frames [.variableNamed "custom"] d t ∧ ∀ other,
      t.customField? other = if key = other then some text else d.customField? other := by
  obtain ⟨hsection, fields, rfl, hfields⟩ := exists_of_setCustom h
  refine ⟨hsection.frames_write _ _, fun other => ?_⟩
  have hread := (hsection.stateVariable_write "custom" "custom"
    (.map (KeyMap.insert fields key (.text text)))).trans (if_pos rfl)
  rw [customField?_of_variable hread, KeyMap.find?_insert, hfields]
  split <;> rfl

end Download

/-! ## Settings -/

namespace IntSetting

/-- The reading that shows the setting. -/
def shown : IntSetting → DownloadReading
  | .hashFailed => .hasHashFailed
  | .peerExchange => .isPexEnabled
  | .maxFileSize => .maxFileSize
  | .peersMin => .peersMin
  | .peersMax => .peersMax
  | .uploadsMax => .uploadsMax
  | .trackerNumWant => .trackerNumWant
  | .priority => .priority
  | .variableNamed name => .variableNamed name

/-- The readings that depend on the setting. -/
def touched : IntSetting → List DownloadReading
  | .peerExchange => [.isPexEnabled, .isPexActive]
  | .priority => [.priority, .priorityName]
  | setting => [setting.shown]

/-- Of a flag it is shown whether it is set. -/
def isFlag : IntSetting → Bool
  | .hashFailed | .peerExchange => true
  | _ => false

/-- What is shown of the integer that was set. -/
def value (n : Int64) (setting : IntSetting) : Value :=
  if setting.isFlag then .ofBool (n != 0) else .int n

end IntSetting

namespace TextSetting

/-- The reading that shows the text that was set, if there is one. -/
def shown : TextSetting → Option DownloadReading
  | .message => some .message
  | .directoryBase => some .directory
  | .connection => some .connection
  | .variableNamed name => some (.variableNamed name)
  | .directory | .addedPeer => none

def touched : TextSetting → List DownloadReading
  | .directoryBase => [.directory, .basePath, .baseFilename]
  | setting => setting.shown.toList

end TextSetting

section Assign

variable {d t : Download} {n : Int64} {s : String}

/-- A checked integer is taken as it is. -/
theorem eq_of_run_nonNegative {change : Int64 → Download → Download}
    (h : (do let n ← Edit.lift (nonNegative n); modify (change n) : Edit Unit).run.run d =
      (.ok (), t)) : t = change n d := by
  unfold nonNegative at h
  split at h
  · cases h
  · rw [Edit.run_bind_ok (Edit.run_lift _ d)] at h
    cases h
    rfl

/-- **An integer that was set is shown, and few readings depend on it.** Most settings are fields of
their own. -/
theorem IntSetting.frames {setting : IntSetting} (h : (setting.assign n).run.run d = (.ok (), t)) :
    Frames setting.touched d t ∧ setting.shown.read t = .ok (setting.value n) := by
  cases setting with
  | variableNamed name =>
    have hsection := Edit.hasSection_of_setVariable h
    cases (Edit.run_setVariable hsection name (.int n)).symm.trans h
    exact ⟨hsection.frames_write name (.int n),
      (hsection.stateVariable_write name name (.int n)).trans (if_pos rfl)⟩
  | hashFailed =>
    cases h
    refine ⟨⟨fun r hr => ?_, rfl, rfl, rfl, rfl, rfl⟩, rfl⟩
    cases r with
    | hasHashFailed => exact (hr (List.mem_singleton.2 rfl)).elim
    | _ => rfl
  | peerExchange =>
    cases h
    refine ⟨⟨fun r hr => ?_, rfl, rfl, rfl, rfl, rfl⟩, rfl⟩
    cases r with
    | isPexEnabled | isPexActive => exact (hr (by simp [touched])).elim
    | _ => rfl
  | maxFileSize =>
    obtain rfl := eq_of_run_nonNegative h
    refine ⟨⟨fun r hr => ?_, rfl, rfl, rfl, rfl, rfl⟩, rfl⟩
    cases r with
    | maxFileSize => exact (hr (List.mem_singleton.2 rfl)).elim
    | _ => rfl
  | peersMin =>
    obtain rfl := eq_of_run_nonNegative h
    refine ⟨⟨fun r hr => ?_, rfl, rfl, rfl, rfl, rfl⟩, rfl⟩
    cases r with
    | peersMin => exact (hr (List.mem_singleton.2 rfl)).elim
    | _ => rfl
  | peersMax =>
    obtain rfl := eq_of_run_nonNegative h
    refine ⟨⟨fun r hr => ?_, rfl, rfl, rfl, rfl, rfl⟩, rfl⟩
    cases r with
    | peersMax => exact (hr (List.mem_singleton.2 rfl)).elim
    | _ => rfl
  | uploadsMax =>
    obtain rfl := eq_of_run_nonNegative h
    refine ⟨⟨fun r hr => ?_, rfl, rfl, rfl, rfl, rfl⟩, rfl⟩
    cases r with
    | uploadsMax => exact (hr (List.mem_singleton.2 rfl)).elim
    | _ => rfl
  | trackerNumWant =>
    cases h
    refine ⟨⟨fun r hr => ?_, rfl, rfl, rfl, rfl, rfl⟩, rfl⟩
    cases r with
    | trackerNumWant => exact (hr (List.mem_singleton.2 rfl)).elim
    | _ => rfl
  | priority =>
    simp only [assign] at h
    split at h
    · cases h
    · cases h
      refine ⟨⟨fun r hr => ?_, rfl, rfl, rfl, rfl, rfl⟩, rfl⟩
      cases r with
      | priority | priorityName => exact (hr (by simp [touched])).elim
      | _ => rfl

theorem TextSetting.frames {setting : TextSetting} {r : DownloadReading}
    (hshown : setting.shown = some r) (h : (setting.assign s).run.run d = (.ok (), t)) :
    Frames setting.touched d t ∧ r.read t = .ok (.text s) := by
  cases setting with
  | variableNamed name =>
    cases hshown
    have hsection := Edit.hasSection_of_setVariable h
    cases (Edit.run_setVariable hsection name (.text s)).symm.trans h
    exact ⟨hsection.frames_write name (.text s),
      (hsection.stateVariable_write name name (.text s)).trans (if_pos rfl)⟩
  | message =>
    cases hshown
    cases h
    refine ⟨⟨fun r hr => ?_, rfl, rfl, rfl, rfl, rfl⟩, rfl⟩
    cases r with
    | message => exact (hr (List.mem_singleton.2 rfl)).elim
    | _ => rfl
  | directoryBase =>
    cases hshown
    cases h
    refine ⟨⟨fun r hr => ?_, rfl, rfl, rfl, rfl, rfl⟩, rfl⟩
    cases r with
    | directory | basePath | baseFilename => exact (hr (by simp [touched])).elim
    | _ => rfl
  | connection =>
    cases hshown
    simp only [assign] at h
    split at h
    · rename_i kind hkind
      cases h
      have hname : (kind.name == s) = true :=
        List.find?_some (p := fun c : ConnectionType => c.name == s) hkind
      refine ⟨⟨fun r hr => ?_, rfl, rfl, rfl, rfl, rfl⟩,
        congrArg (Except.ok ∘ Value.text) (beq_iff_eq.1 hname)⟩
      cases r with
      | connection => exact (hr (List.mem_singleton.2 rfl)).elim
      | _ => rfl
    · cases h
  | directory | addedPeer => cases hshown

end Assign

/-! ## Parts -/

namespace FileList

/-- The list with the priority of a file set. -/
def prioritize (list : FileList) (i : Nat) (priority : Int64) : FileList :=
  { list with files := list.files.modify i fun file => { file with priority } }

variable (list : FileList) (i : Nat) (n : Int64)

/-- What is read of the files one by one, but not of their priorities, stays. -/
theorem map_prioritize {α : Type} {g : File → α}
    (h : ∀ file, g { file with priority := n } = g file) : (list.prioritize i n).files.map g = list.files.map g :=
  map_modify_eq h list.files i

theorem size_prioritize : (list.prioritize i n).size = list.size := by
  rw [size, map_prioritize list i n fun _ => rfl, size]

theorem offset_prioritize (j : Nat) : (list.prioritize i n).offset j = list.offset j := by
  rw [offset, List.map_take, map_prioritize list i n fun _ => rfl, ← List.map_take, offset]

theorem sizeInChunks_prioritize : (list.prioritize i n).sizeInChunks = list.sizeInChunks := by
  simp only [sizeInChunks, size_prioritize]
  rfl

theorem completedChunks_prioritize :
    (list.prioritize i n).completedChunks = list.completedChunks := by
  have hcounted := map_prioritize list i n (g := File.completedChunks) fun _ => rfl
  simp only [completedChunks, sizeInChunks_prioritize, hcounted]

theorem completedBytes_prioritize :
    (list.prioritize i n).completedBytes = list.completedBytes := by
  simp only [completedBytes, completedChunks_prioritize, size_prioritize]
  rfl

theorem leftBytes_prioritize : (list.prioritize i n).leftBytes = list.leftBytes := by
  simp only [leftBytes, completedBytes_prioritize, size_prioritize]

theorem getElem?_prioritize (j : Nat) : (list.prioritize i n).files[j]? =
    list.files[j]?.map fun file => if i = j then { file with priority := n } else file := by
  rw [prioritize, List.getElem?_modify]
  rfl

theorem fileChunks_prioritize (j : Nat) :
    (list.prioritize i n).fileChunks j = list.fileChunks j := by
  simp only [fileChunks, offset_prioritize, getElem?_prioritize]
  cases list.files[j]? with
  | none => rfl
  | some file => by_cases hij : i = j <;> simp only [hij, Option.map_some, if_true, if_false] <;> rfl

end FileList

/-- The path of the payload depends on the paths of the files alone. -/
theorem Download.basePath_congr {a b : Download} (hdirectory : b.files.directory = a.files.directory)
    (hmulti : b.files.isMultiFile = a.files.isMultiFile)
    (hpaths : b.files.files.map File.path = a.files.files.map File.path) :
    b.basePath = a.basePath := by
  simp only [basePath, hmulti, hdirectory]
  split
  · rfl
  · generalize a.files.files = before at hpaths
    generalize b.files.files = after at hpaths
    cases before <;> cases after <;> simp_all [File.pathText]

section Parts

variable (d : Download) (i : Nat)

/-- **Of a file whose priority was set, and of its download, all but this is shown as before.** -/
theorem Sight.same_prioritized (n : Int64) {sight : Sight} (h : sight ≠ .file i .priority) :
    sight.Same d (d.onFile i fun file => { file with priority := n }) := by
  have hfiles : (d.onFile i fun file => { file with priority := n }).files =
      d.files.prioritize i n := rfl
  cases sight with
  | reading r =>
    have hbase : (d.onFile i fun file => { file with priority := n }).basePath = d.basePath :=
      basePath_congr rfl rfl (d.files.map_prioritize i n fun _ => rfl)
    cases r with
    | basePath | baseFilename => simp only [Same, DownloadReading.read, baseFilename, hbase]
    | fileCount => exact congrArg (Except.ok ∘ Value.ofCount) (List.length_modify ..)
    | sizeInBytes | sizeInChunks | completedBytes | completedChunks | leftBytes =>
      simp only [Same, DownloadReading.read, hfiles, FileList.size_prioritize,
        FileList.sizeInChunks_prioritize, FileList.completedBytes_prioritize,
        FileList.completedChunks_prioritize, FileList.leftBytes_prioritize]
    | _ => rfl
  | fileCount => exact List.length_modify ..
  | file j r =>
    simp only [Same, hfiles, FileList.getElem?_prioritize, Option.map_map]
    refine Option.map_congr fun file _ => ?_
    by_cases hij : i = j
    · subst hij
      cases r with
      | priority => exact (h rfl).elim
      | offset | sizeInChunks =>
        simp only [Function.comp_apply, FileReading.read, FileList.offset_prioritize,
          FileList.fileChunks_prioritize]
      | _ => simp only [Function.comp_apply, if_true, FileReading.read] <;> rfl
    · simp only [Function.comp_apply, if_neg hij]
      cases r <;> simp only [FileReading.read, FileList.offset_prioritize,
        FileList.fileChunks_prioritize]
  | custom | peer | tracker => rfl

/-- **Of a tracker that was enabled or disabled, and of its download, all but this is shown as
before.** -/
theorem Sight.same_enabled (flag : Bool) {sight : Sight} (h : sight ≠ .tracker i .isEnabled) :
    sight.Same d (d.onTracker i fun tracker => { tracker with isEnabled := flag }) := by
  cases sight with
  | tracker j r =>
    simp only [Same, onTracker, List.getElem?_modify, Option.map_eq_map, Option.map_map]
    refine Option.map_congr fun tracker _ => ?_
    by_cases hij : i = j
    · subst hij
      cases r with
      | isEnabled => exact (h rfl).elim
      | _ => simp only [Function.comp_apply, if_true, TrackerReading.read]
    · simp only [Function.comp_apply, if_neg hij]
  | reading r =>
    cases r with
    | trackerCount => exact congrArg (Except.ok ∘ Value.ofCount) (List.length_modify ..)
    | _ => rfl
  | _ => rfl

end Parts

end TorrentControl
