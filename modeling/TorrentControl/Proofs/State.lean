import TorrentControl.Proofs.Aim
import TorrentControl.Proofs.Holds
import TorrentControl.Proofs.KeyMap
import TorrentControl.Proofs.Manifest

/-! # The states of downloads are well typed

The state of a download is an untyped tree that manifests and commands write into. Every one of them
writes a variable with the kind that the fresh state gave it, so the section of the state stays well
typed whatever runs, and no command meets a value of another kind in it. -/

namespace TorrentControl

/-! ## Maps under their keys -/

theorem CommandError.ofValue_ok {α : Type} (a : α) : ofValue (.ok a) = .ok a := rfl

namespace Value

variable {entries : KeyMap Value} {key : String} {v : Value}

theorem getKey_eq_ok_iff :
    (map entries).getKey key = .ok v ↔ KeyMap.find? entries key = some v := by
  unfold getKey asMap
  cases hfind : KeyMap.find? entries key with
  | none => simp [bind, Except.bind, hfind]
  | some found => simp [bind, Except.bind, pure, Except.pure, hfind]

theorem insertKey_map (v : Value) :
    (map entries).insertKey key v = .ok (map (KeyMap.insert entries key v)) := rfl

theorem replaceKey_map (h : KeyMap.find? entries key = some v) (w : Value) :
    (map entries).replaceKey key w = .ok (map (KeyMap.insert entries key w)) := by
  rw [replaceKey, getKey_eq_ok_iff.2 h]
  rfl

end Value

namespace Download

/-! ## Typed sections -/

/-- The values of all fields are texts. -/
def AllTexts (fields : KeyMap Value) : Prop :=
  ∀ entry ∈ fields, ∃ s, entry.2 = .text s

/-- Each variable of a fresh state is there and of its kind, the views are a list, and the custom
fields are texts. -/
structure TypedSection (values : KeyMap Value) : Prop where
  integers : ∀ name ∈ integerVariables, ∃ n, KeyMap.find? values name = some (.int n)
  texts : ∀ name ∈ textVariables.map Prod.fst, ∃ s, KeyMap.find? values name = some (.text s)
  views : ∃ items, KeyMap.find? values "views" = some (.list items)
  custom : ∃ fields, KeyMap.find? values "custom" = some (.map fields) ∧ AllTexts fields

/-- The download has a state with a well-typed section. -/
def Typed (d : Download) : Prop :=
  ∃ entries values, d.state = .map entries ∧
    KeyMap.find? entries sectionName = some (.map values) ∧ TypedSection values

/-- The value may be written to the variable. -/
structure Fits (name : String) (v : Value) : Prop where
  integer : name ∈ integerVariables → ∃ n, v = .int n
  text : name ∈ textVariables.map Prod.fst → ∃ s, v = .text s
  views : name = "views" → ∃ items, v = .list items
  custom : name = "custom" → ∃ fields, v = .map fields ∧ AllTexts fields

theorem fits_int {name : String} (h : name ∈ integerVariables) (n : Int64) :
    Fits name (.int n) := by
  have table : ∀ name ∈ integerVariables, name ∉ textVariables.map Prod.fst ∧
      name ≠ "views" ∧ name ≠ "custom" := by decide
  obtain ⟨htext, hviews, hcustom⟩ := table name h
  exact ⟨fun _ => ⟨n, rfl⟩, fun h => (htext h).elim, fun h => (hviews h).elim,
    fun h => (hcustom h).elim⟩

theorem fits_text {name : String} (h : name ∈ textVariables.map Prod.fst) (s : String) :
    Fits name (.text s) := by
  have table : ∀ name ∈ textVariables.map Prod.fst, name ∉ integerVariables ∧
      name ≠ "views" ∧ name ≠ "custom" := by decide
  obtain ⟨hint, hviews, hcustom⟩ := table name h
  exact ⟨fun h => (hint h).elim, fun _ => ⟨s, rfl⟩, fun h => (hviews h).elim,
    fun h => (hcustom h).elim⟩

theorem fits_views (items : List Value) : Fits "views" (.list items) :=
  ⟨fun h => absurd h (by decide), fun h => absurd h (by decide), fun _ => ⟨items, rfl⟩,
    fun h => absurd h (by decide)⟩

theorem fits_custom {fields : KeyMap Value} (h : AllTexts fields) : Fits "custom" (.map fields) :=
  ⟨fun h => absurd h (by decide), fun h => absurd h (by decide), fun h => absurd h (by decide),
    fun _ => ⟨fields, rfl, h⟩⟩

theorem AllTexts.insert {fields : KeyMap Value} (h : AllTexts fields) (key text : String) :
    AllTexts (KeyMap.insert fields key (.text text)) := by
  intro entry hentry
  rcases KeyMap.mem_insert hentry with rfl | hentry
  · exact ⟨text, rfl⟩
  · exact h entry hentry

/-- **A section stays well typed where a variable gets a value that fits it.** -/
theorem TypedSection.insert {values : KeyMap Value} (h : TypedSection values) {name : String}
    {v : Value} (hfits : Fits name v) : TypedSection (KeyMap.insert values name v) where
  integers other hother := by
    rw [KeyMap.find?_insert]
    split
    · rename_i heq
      obtain ⟨n, rfl⟩ := hfits.integer (heq ▸ hother)
      exact ⟨n, rfl⟩
    · exact h.integers other hother
  texts other hother := by
    rw [KeyMap.find?_insert]
    split
    · rename_i heq
      obtain ⟨s, rfl⟩ := hfits.text (heq ▸ hother)
      exact ⟨s, rfl⟩
    · exact h.texts other hother
  views := by
    rw [KeyMap.find?_insert]
    split
    · rename_i heq
      obtain ⟨items, rfl⟩ := hfits.views heq
      exact ⟨items, rfl⟩
    · exact h.views
  custom := by
    rw [KeyMap.find?_insert]
    split
    · rename_i heq
      obtain ⟨fields, rfl, htexts⟩ := hfits.custom heq
      exact ⟨fields, rfl, htexts⟩
    · exact h.custom

theorem typedSection_initial : ∃ values, initialSection = .map values ∧ TypedSection values := by
  have integers : ∀ name ∈ integerVariables, initialSection.getKey name = .ok (.int 0) := by decide
  have texts : ∀ entry ∈ textVariables, initialSection.getKey entry.1 = .ok (.text entry.2) := by
    decide
  have views : initialSection.getKey "views" = .ok (.list []) := by decide
  have custom : initialSection.getKey "custom" = .ok (.map []) := by decide
  obtain ⟨values, hvalues⟩ : ∃ values, initialSection = .map values := ⟨_, rfl⟩
  rw [hvalues] at integers texts views custom
  refine ⟨values, hvalues, ?_⟩
  constructor
  case integers => exact fun name hname => ⟨0, Value.getKey_eq_ok_iff.1 (integers name hname)⟩
  case texts =>
    intro name hname
    obtain ⟨entry, hentry, rfl⟩ := List.mem_map.1 hname
    exact ⟨entry.2, Value.getKey_eq_ok_iff.1 (texts entry hentry)⟩
  case views => exact ⟨[], Value.getKey_eq_ok_iff.1 views⟩
  case custom => exact ⟨[], Value.getKey_eq_ok_iff.1 custom, nofun⟩

theorem typed_fresh (name : String) (infoHash : Digest) : (fresh name infoHash).Typed := by
  obtain ⟨values, hvalues, htyped⟩ := typedSection_initial
  exact ⟨[(sectionName, initialSection)], values, rfl, hvalues ▸ rfl, htyped⟩

/-- The property of a download depends on its state only. -/
theorem Typed.of_state {d t : Download} (h : d.Typed) (hstate : t.state = d.state) : t.Typed := by
  obtain ⟨entries, values, hentries, hrest⟩ := h
  exact ⟨entries, values, hstate.trans hentries, hrest⟩

/-! ## Reading a typed state -/

section Reading

variable {d : Download}

theorem Typed.stateSection (h : d.Typed) :
    ∃ values, d.stateSection = .ok (.map values) ∧ TypedSection values := by
  obtain ⟨entries, values, hstate, hfound, htyped⟩ := h
  refine ⟨values, ?_, htyped⟩
  rw [Download.stateSection, hstate, Value.getKey_eq_ok_iff.2 hfound]
  rfl

theorem stateVariable_ok {values : KeyMap Value} (h : d.stateSection = .ok (.map values))
    {name : String} {v : Value} (hfound : KeyMap.find? values name = some v) :
    d.stateVariable name = .ok v := by
  rw [Download.stateVariable, h]
  change CommandError.ofValue ((Value.map values).getKey name) = _
  rw [Value.getKey_eq_ok_iff.2 hfound]
  rfl

/-- The names of all variables that commands read. -/
def variableNames : List String :=
  integerVariables ++ textVariables.map Prod.fst

theorem Typed.stateVariable (h : d.Typed) {name : String} (hname : name ∈ variableNames) :
    ∃ v, d.stateVariable name = .ok v := by
  obtain ⟨values, hsection, htyped⟩ := h.stateSection
  rcases List.mem_append.1 hname with hname | hname
  · obtain ⟨n, hn⟩ := htyped.integers name hname
    exact ⟨_, stateVariable_ok hsection hn⟩
  · obtain ⟨s, hs⟩ := htyped.texts name hname
    exact ⟨_, stateVariable_ok hsection hs⟩

theorem Typed.views (h : d.Typed) : ∃ items, d.stateVariable "views" = .ok (.list items) := by
  obtain ⟨values, hsection, htyped⟩ := h.stateSection
  obtain ⟨items, hitems⟩ := htyped.views
  exact ⟨items, stateVariable_ok hsection hitems⟩

theorem Typed.integer (h : d.Typed) {name : String} (hname : name ∈ integerVariables) :
    ∃ n, d.stateVariable name = .ok (.int n) := by
  obtain ⟨values, hsection, htyped⟩ := h.stateSection
  obtain ⟨n, hn⟩ := htyped.integers name hname
  exact ⟨n, stateVariable_ok hsection hn⟩

/-- Commands are ignored where the variable for it is not zero. -/
theorem Typed.ignoring (h : d.Typed) : ∃ n,
    d.stateVariable "ignore_commands" = .ok (.int n) ∧ d.ignoresCommands = .ok (n != 0) := by
  have hname : "ignore_commands" ∈ integerVariables := by decide
  obtain ⟨n, hn⟩ := h.integer hname
  exact ⟨n, hn, by rw [Download.ignoresCommands, hn]; rfl⟩

theorem Typed.ignoresCommands (h : d.Typed) : ∃ ignores, d.ignoresCommands = .ok ignores := by
  obtain ⟨n, -, hignores⟩ := h.ignoring
  exact ⟨n != 0, hignores⟩

end Reading

/-! ## Editing a typed state -/

namespace Edit

variable {α β : Type}

theorem run_bind (edit : Edit α) (f : α → Edit β) (d : Download) :
    (edit >>= f).run.run d = match edit.run.run d with
      | (.ok a, t) => (f a).run.run t
      | (.error c, t) => (.error c, t) := by
  change (ExceptT.bind edit f).run.run d = _
  simp only [ExceptT.bind, ExceptT.run, ExceptT.mk, StateT.run, bind, StateT.bind]
  rcases edit d with ⟨_ | _, _⟩ <;> rfl

theorem run_bind_ok {edit : Edit α} {f : α → Edit β} {d t : Download} {a : α}
    (h : edit.run.run d = (.ok a, t)) : (edit >>= f).run.run d = (f a).run.run t := by
  rw [run_bind, h]

theorem run_bind_error {edit : Edit α} {f : α → Edit β} {d t : Download} {c : CommandError}
    (h : edit.run.run d = (.error c, t)) : (edit >>= f).run.run d = (.error c, t) := by
  rw [run_bind, h]

theorem run_get (d : Download) : (get : Edit Download).run.run d = (.ok d, d) := rfl

theorem run_lift (x : Except CommandError α) (d : Download) : (lift x).run.run d = (x, d) := rfl

/-- From a typed download the edit goes through and leaves a typed one. -/
def Succeeds (edit : Edit α) : Prop :=
  ∀ d, d.Typed → ∃ a t, edit.run.run d = (.ok a, t) ∧ t.Typed

/-- From a typed download the edit leaves a typed one, and no value error is the outcome. -/
def Sound (edit : Edit α) : Prop :=
  ∀ d, d.Typed → (edit.after d).Typed ∧ ∀ e, (edit.run.run d).1 ≠ .error (.value e)

theorem Succeeds.sound {edit : Edit α} (h : edit.Succeeds) : edit.Sound := by
  intro d hd
  obtain ⟨a, t, hrun, ht⟩ := h d hd
  rw [after, hrun]
  refine ⟨ht, fun e he => ?_⟩
  cases he

theorem Succeeds.bind {edit : Edit α} {f : α → Edit β} (h : edit.Succeeds)
    (hf : ∀ a, (f a).Succeeds) : (edit >>= f).Succeeds := by
  intro d hd
  obtain ⟨a, t, hrun, ht⟩ := h d hd
  rw [run_bind_ok hrun]
  exact hf a t ht

theorem Sound.bind {edit : Edit α} {f : α → Edit β} (h : edit.Sound) (hf : ∀ a, (f a).Sound) :
    (edit >>= f).Sound := by
  intro d hd
  have hedit := h d hd
  rw [after] at hedit ⊢
  rcases hrun : edit.run.run d with ⟨c | a, t⟩
  · rw [hrun] at hedit
    rw [run_bind_error hrun]
    exact ⟨hedit.1, fun e he => hedit.2 e (by cases he; rfl)⟩
  · rw [hrun] at hedit
    rw [run_bind_ok hrun]
    exact hf a t hedit.1

theorem succeeds_pure (a : α) : (pure a : Edit α).Succeeds :=
  fun d hd => ⟨a, d, rfl, hd⟩

theorem succeeds_get : (get : Edit Download).Succeeds :=
  fun d hd => ⟨d, d, rfl, hd⟩

theorem succeeds_modify {f : Download → Download} (h : ∀ d, (f d).state = d.state) :
    (modify f : Edit Unit).Succeeds :=
  fun d hd => ⟨(), f d, rfl, hd.of_state (h d)⟩

theorem sound_lift {x : Except CommandError α} (h : ∀ e, x ≠ .error (.value e)) :
    (lift x).Sound := by
  cases x with
  | ok a => exact (succeeds_pure a).sound
  | error c => exact fun d hd => ⟨hd, h⟩

theorem sound_throw (fault : InputFault) : (throw (.input fault) : Edit α).Sound :=
  fun _ hd => ⟨hd, nofun⟩

/-- **An edit of the section keeps it well typed if the change does.** -/
theorem succeeds_onSection {change : Value → Except ValueError Value}
    (h : ∀ values, TypedSection values →
      ∃ changed, change (.map values) = .ok (.map changed) ∧ TypedSection changed) :
    (onSection change).Succeeds := by
  intro d hd
  obtain ⟨entries, values, hstate, hfound, htyped⟩ := hd
  obtain ⟨changed, hchange, hchanged⟩ := h values htyped
  have hsection : d.stateSection = .ok (.map values) := by
    rw [Download.stateSection, hstate, Value.getKey_eq_ok_iff.2 hfound]
    rfl
  let t : Download := { d with state := .map (KeyMap.insert entries sectionName (.map changed)) }
  refine ⟨(), t, ?_, _, changed, rfl, ?_, hchanged⟩
  · have hreplace := Value.replaceKey_map hfound (.map changed)
    rw [← hstate] at hreplace
    rw [onSection, run_bind_ok (run_get d), hsection, run_bind_ok (run_lift _ d), hchange,
      CommandError.ofValue_ok, run_bind_ok (run_lift _ d), hreplace, CommandError.ofValue_ok,
      run_bind_ok (run_lift _ d)]
    rfl
  · rw [KeyMap.find?_insert, if_pos rfl]

theorem succeeds_setVariable {name : String} {v : Value} (h : Fits name v) :
    (setVariable name v).Succeeds :=
  succeeds_onSection fun _ hvalues => ⟨_, Value.insertKey_map v, hvalues.insert h⟩

/-- A change of a variable that is there. -/
theorem replaceVariable_ok {values : KeyMap Value} (hvalues : TypedSection values) {name : String}
    {old new : Value} {change : Value → Except ValueError Value}
    (hfound : KeyMap.find? values name = some old) (hchange : change old = .ok new)
    (hfits : Fits name new) :
    ∃ changed,
      (do (Value.map values).replaceKey name (← change (← (Value.map values).getKey name))) =
        .ok (.map changed) ∧ TypedSection changed := by
  refine ⟨_, ?_, hvalues.insert hfits⟩
  rw [Value.getKey_eq_ok_iff.2 hfound]
  change (do (Value.map values).replaceKey name (← change old)) = _
  rw [hchange]
  exact Value.replaceKey_map hfound new

/-- The views may be changed to any other list. -/
theorem succeeds_onViews {change : Value → Except ValueError Value}
    (h : ∀ items, ∃ changed, change (.list items) = .ok (.list changed)) :
    (onVariable "views" change).Succeeds := by
  refine succeeds_onSection fun values hvalues => ?_
  obtain ⟨items, hitems⟩ := hvalues.views
  obtain ⟨changed, hchanged⟩ := h items
  exact replaceVariable_ok hvalues hitems hchanged (fits_views changed)

theorem succeeds_enterState (state : Int64) : (enterState state).Succeeds := by
  refine (succeeds_setVariable (fits_int (by decide) state)).bind fun _ => ?_
  refine succeeds_onSection fun values hvalues => ?_
  obtain ⟨n, hn⟩ := hvalues.integers "state_counter" (by decide)
  have hfits : Fits "state_counter" (.int (Number.Word.clamp (n.toInt + 1))) :=
    fits_int (by decide) _
  refine ⟨_, ?_, hvalues.insert hfits⟩
  rw [Value.getKey_eq_ok_iff.2 hn]
  rfl

theorem succeeds_resume : resume.Succeeds := by
  refine Succeeds.bind (succeeds_modify ?_) fun _ => succeeds_enterState 1
  exact fun _ => rfl

theorem succeeds_pause : pause.Succeeds := by
  refine Succeeds.bind (succeeds_modify ?_) fun _ => succeeds_enterState 0
  exact fun _ => rfl

theorem succeeds_setCustom (key text : String) : (setCustom key text).Succeeds := by
  refine succeeds_onSection fun values hvalues => ?_
  obtain ⟨fields, hfields, htexts⟩ := hvalues.custom
  have hcontains : KeyMap.contains values "custom" = true := by
    rw [KeyMap.contains_iff_find?, hfields]
    rfl
  refine ⟨_, ?_, hvalues.insert (fits_custom (htexts.insert key text))⟩
  have hpresent : (Value.map values).insertKeyIfAbsent "custom" (.map []) = .ok (.map values) := by
    change (if KeyMap.contains values "custom" then Except.ok (Value.map values) else _) = _
    rw [if_pos hcontains]
  rw [hpresent]
  change (do
    let fields ← (← (Value.map values).getKey "custom").insertKey key (.text text)
    (Value.map values).replaceKey "custom" fields) = _
  rw [Value.getKey_eq_ok_iff.2 hfields]
  exact Value.replaceKey_map hfields _

/-- Every operation on the views goes through. -/
theorem succeeds_views (args : Value) (operation : ListOperation) :
    (operation.perform "views" args).Succeeds := by
  cases operation with
  | items =>
    intro d hd
    obtain ⟨items, hitems⟩ := hd.views
    refine ⟨.list items, d, ?_, hd⟩
    rw [ListOperation.perform, run_bind_ok (run_get d), hitems, run_bind_ok (run_lift _ d)]
    rfl
  | has =>
    intro d hd
    obtain ⟨items, hitems⟩ := hd.views
    refine ⟨.ofBool (items.any (· == args.argument)), d, ?_, hd⟩
    rw [ListOperation.perform, run_bind_ok (run_get d), hitems, run_bind_ok (run_lift _ d)]
    rfl
  | remove =>
    refine Succeeds.bind (succeeds_onViews fun items => ?_) fun _ => succeeds_pure _
    exact ⟨_, rfl⟩
  | push =>
    refine Succeeds.bind (succeeds_onViews fun items => ?_) fun _ => succeeds_pure _
    exact ⟨_, rfl⟩
  | pushUnique =>
    refine Succeeds.bind (succeeds_onViews fun items => ?_) fun _ => succeeds_pure _
    have hcontains : (Value.list items).contains args.argument =
        .ok (items.any (· == args.argument)) := rfl
    rw [hcontains]
    cases items.any (· == args.argument) with
    | true => exact ⟨items, rfl⟩
    | false => exact ⟨_, rfl⟩

/-! ### Settings and actions -/

/-- No setting is refused for what the state holds, if its variable is one of the integers. -/
theorem sound_setInt (n : Int64) (setting : IntSetting)
    (h : ∀ name, setting = .variableNamed name → name ∈ integerVariables) :
    (setting.assign n).Sound := by
  have bounded {f : Int64 → Download → Download} (hf : ∀ n d, (f n d).state = d.state) :
      Sound (do let n ← lift (nonNegative n); modify (f n)) := by
    refine Sound.bind (sound_lift ?_) fun n => (succeeds_modify (hf n)).sound
    intro e
    unfold nonNegative
    split <;> simp
  cases setting with
  | hashFailed => exact (succeeds_modify fun _ => rfl).sound
  | peerExchange => exact (succeeds_modify fun _ => rfl).sound
  | maxFileSize => exact bounded fun _ _ => rfl
  | peersMin => exact bounded fun _ _ => rfl
  | peersMax => exact bounded fun _ _ => rfl
  | uploadsMax => exact bounded fun _ _ => rfl
  | trackerNumWant => exact (succeeds_modify fun _ => rfl).sound
  | priority =>
    simp only [IntSetting.assign]
    split
    · exact (sound_throw _).bind fun _ => (succeeds_modify fun _ => rfl).sound
    · exact (succeeds_modify fun _ => rfl).sound
  | variableNamed name => exact (succeeds_setVariable (fits_int (h name rfl) n)).sound

theorem readPeerAddress_ne_value (address : String) (e : ValueError) :
    readPeerAddress address ≠ .error (.value e) := by
  intro h
  simp only [readPeerAddress, bind, Except.bind, pure, Except.pure, throw, throwThe,
    MonadExceptOf.throw] at h
  repeat' split at h
  all_goals simp_all

theorem sound_addPeer (address : String) : (addPeer address).Sound := by
  refine succeeds_get.sound.bind fun d => ?_
  have hread := sound_lift (readPeerAddress_ne_value address)
  dsimp only
  split
  · refine (sound_throw _).bind fun _ => hread.bind fun entry => ?_
    exact (succeeds_modify fun _ => rfl).sound
  · refine hread.bind fun entry => ?_
    exact (succeeds_modify fun _ => rfl).sound

/-- No setting is refused for what the state holds, if its variable is one of the texts. -/
theorem sound_setText (s : String) (setting : TextSetting)
    (h : ∀ name, setting = .variableNamed name → name ∈ textVariables.map Prod.fst) :
    (setting.assign s).Sound := by
  cases setting with
  | message => exact (succeeds_modify fun _ => rfl).sound
  | directory => exact (succeeds_modify fun _ => rfl).sound
  | directoryBase => exact (succeeds_modify fun _ => rfl).sound
  | connection =>
    simp only [TextSetting.assign]
    split
    · exact (succeeds_modify fun _ => rfl).sound
    · exact sound_throw _
  | addedPeer => exact sound_addPeer s
  | variableNamed name => exact (succeeds_setVariable (fits_text (h name rfl) s)).sound

theorem sound_act (action : DownloadAction) : action.act.Sound := by
  cases action with
  | resume => exact succeeds_resume.sound
  | pause => exact succeeds_pause.sound
  | openStorage => exact (succeeds_modify fun _ => rfl).sound
  | closeStorage =>
    refine succeeds_get.sound.bind fun d => ?_
    dsimp only
    split
    · exact (sound_throw _).bind fun _ => (succeeds_modify fun _ => rfl).sound
    · exact (succeeds_modify fun _ => rfl).sound
  | checkHash =>
    refine succeeds_get.sound.bind fun d => ?_
    dsimp only
    split
    · exact (sound_throw _).bind fun _ => (succeeds_modify fun _ => rfl).sound
    · exact (succeeds_modify fun _ => rfl).sound

end Edit

/-! ## Downloads of manifests -/

theorem AllTexts.insertAll {fields : KeyMap Value} (h : AllTexts fields) (custom : KeyMap String) :
    AllTexts
      (custom.foldl (fun all entry => KeyMap.insert all entry.1 (.text entry.2)) fields) := by
  induction custom generalizing fields with
  | nil => exact h
  | cons entry rest ih => exact ih (h.insert entry.1 entry.2)

end Download

namespace DownloadManifest

open Download Download.Edit

/-- What a manifest seeds is well typed. -/
theorem succeeds_seed (m : DownloadManifest) : m.seed.Succeeds := by
  have fields : Succeeds (Download.Edit.onVariable "custom" fun fields => do
      let entries ← fields.asMap
      return .map
        (m.custom.foldl (fun all entry => KeyMap.insert all entry.1 (.text entry.2)) entries)) := by
    refine succeeds_onSection fun values hvalues => ?_
    obtain ⟨fields, hfields, htexts⟩ := hvalues.custom
    exact replaceVariable_ok hvalues hfields rfl (fits_custom (htexts.insertAll m.custom))
  have views : Succeeds (Download.Edit.onVariable "views" fun views => do
      return .list ((← views.asList) ++ m.views.map .text)) :=
    succeeds_onViews fun items => ⟨items ++ m.views.map .text, rfl⟩
  have started : (Download.Edit.setVariable "state" (.int 1)).Succeeds :=
    succeeds_setVariable (fits_int (by decide) 1)
  unfold seed
  dsimp only
  split
  · exact started.bind fun _ => fields.bind fun _ => views
  · exact fields.bind fun _ => views

/-- What a manifest builds is well typed. -/
theorem typed_of_build {m : DownloadManifest} {d : Download} (h : m.build = .ok d) : d.Typed := by
  obtain ⟨said, -, hseed⟩ := build_eq_ok_iff.1 h
  have hstate : (m.layOut said).state = initialState := rfl
  have hstart := (typed_fresh m.name said.infoHash).of_state hstate
  obtain ⟨_, t, hrun, ht⟩ := m.succeeds_seed _ hstart
  cases hseed.symm.trans hrun
  exact ht

end DownloadManifest

end TorrentControl
