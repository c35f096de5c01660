import TorrentControl.Proofs.State

/-! # Writing variables

Where the state of a download has a section of variables, writing one of them goes through. What is
read afterwards is the variable as it was written and all others as they were, and of two writes to one
variable the second counts. -/

namespace TorrentControl

theorem KeyMap.insert_insert {α : Type} (m : KeyMap α) (key : String) (v w : α) :
    insert (insert m key v) key w = insert m key w := by
  induction m with
  | nil => simp [insert]
  | cons entry rest ih =>
    by_cases hlt : key < entry.1
    · simp [insert, hlt]
    · by_cases heq : key = entry.1 <;> simp [insert, hlt, heq, ih]

theorem CommandError.ofValue_eq_ok_iff {α : Type} {x : Except ValueError α} {a : α} :
    ofValue x = .ok a ↔ x = .ok a := by
  cases x <;> simp [ofValue, Except.mapError]

/-- Only maps have keys. -/
theorem Value.exists_of_getKey_eq_ok {v found : Value} {key : String} (h : v.getKey key = .ok found) :
    ∃ entries, v = .map entries ∧ KeyMap.find? entries key = some found := by
  cases v with
  | map entries => exact ⟨entries, rfl, getKey_eq_ok_iff.1 h⟩
  | _ => cases h

/-- The items with the argument of a call appended, unless there is an item equal to it. -/
def pushedOnce (items : List Value) (args : Value) : List Value :=
  if args.argument ∈ items then items else items ++ [appended args]

namespace Download

variable {d : Download} {name : String} {v : Value}

/-! ## The section -/

def HasSection (d : Download) : Prop :=
  ∃ values, d.stateSection = .ok (.map values)

theorem exists_of_stateSection {values : KeyMap Value} (h : d.stateSection = .ok (.map values)) :
    ∃ entries, d.state = .map entries ∧ KeyMap.find? entries sectionName = some (.map values) :=
  Value.exists_of_getKey_eq_ok (CommandError.ofValue_eq_ok_iff.1 h)

theorem stateVariable_of_section {values : KeyMap Value} (h : d.stateSection = .ok (.map values))
    (name : String) : d.stateVariable name = CommandError.ofValue ((Value.map values).getKey name) := by
  rw [stateVariable, h]
  rfl

/-- A variable that is there has a section. -/
theorem HasSection.of_stateVariable (h : d.stateVariable name = .ok v) : d.HasSection := by
  obtain ⟨found, hsection, hfound⟩ := Outcome.bind_eq_ok_iff.1 h
  obtain ⟨values, rfl, -⟩ := Value.exists_of_getKey_eq_ok (CommandError.ofValue_eq_ok_iff.1 hfound)
  exact ⟨values, hsection⟩

/-! ## Writing -/

/-- The download with another section of variables. -/
def withSection (d : Download) (values : KeyMap Value) : Download :=
  { d with state := match d.state with
      | .map entries => .map (KeyMap.insert entries sectionName (.map values))
      | state => state }

/-- The download with a variable written, if there is a section for it. -/
def write (d : Download) (name : String) (v : Value) : Download :=
  match d.stateSection with
  | .ok (.map values) => d.withSection (KeyMap.insert values name v)
  | _ => d

section Write

variable {values changed : KeyMap Value}

theorem stateSection_withSection (h : d.stateSection = .ok (.map values)) :
    (d.withSection changed).stateSection = .ok (.map changed) := by
  obtain ⟨entries, hstate, -⟩ := exists_of_stateSection h
  rw [stateSection, withSection, hstate]
  have hfound : KeyMap.find? (KeyMap.insert entries sectionName (.map changed)) sectionName =
      some (.map changed) := by
    rw [KeyMap.find?_insert, if_pos rfl]
  rw [Value.getKey_eq_ok_iff.2 hfound, CommandError.ofValue_ok]

theorem write_of_section (h : d.stateSection = .ok (.map values)) (name : String) (v : Value) :
    d.write name v = d.withSection (KeyMap.insert values name v) := by
  rw [write, h]

theorem HasSection.write (h : d.HasSection) (name : String) (v : Value) :
    (d.write name v).HasSection := by
  obtain ⟨values, hsection⟩ := h
  rw [write_of_section hsection]
  exact ⟨_, stateSection_withSection hsection⟩

/-- A written variable is read as it was written, and the others as they were. -/
theorem HasSection.stateVariable_write (h : d.HasSection) (name other : String) (v : Value) :
    (d.write name v).stateVariable other = if name = other then .ok v else d.stateVariable other := by
  obtain ⟨values, hsection⟩ := h
  rw [write_of_section hsection, stateVariable_of_section (stateSection_withSection hsection),
    stateVariable_of_section hsection]
  have hfind := KeyMap.find?_insert values name other v
  split <;> rename_i heq
  · rw [if_pos heq] at hfind
    rw [Value.getKey_eq_ok_iff.2 hfind, CommandError.ofValue_ok]
  · rw [if_neg heq] at hfind
    unfold Value.getKey Value.asMap
    simp only [bind, Except.bind, hfind]

/-- Of two writes to one variable the second counts. -/
theorem HasSection.write_write (h : d.HasSection) (name : String) (v w : Value) :
    (d.write name v).write name w = d.write name w := by
  obtain ⟨values, hsection⟩ := h
  obtain ⟨entries, hstate, -⟩ := exists_of_stateSection hsection
  rw [write_of_section hsection, write_of_section (stateSection_withSection hsection),
    write_of_section hsection, KeyMap.insert_insert]
  simp only [withSection, hstate, KeyMap.insert_insert]

/-- Writing a variable changes the state only. -/
theorem exists_state_write (d : Download) (name : String) (v : Value) :
    ∃ state, d.write name v = { d with state } := by
  unfold write
  split <;> exact ⟨_, rfl⟩

/-- The other sections of the state stay as they are. -/
theorem getKey_write (d : Download) (name : String) (v : Value) {key : String}
    (hkey : key ≠ sectionName) : (d.write name v).state.getKey key = d.state.getKey key := by
  unfold write
  split
  · unfold withSection
    cases d.state with
    | map entries =>
      have hfind := KeyMap.find?_insert entries sectionName key
      simp only [if_neg hkey.symm] at hfind
      unfold Value.getKey Value.asMap
      simp only [bind, Except.bind, hfind]
    | _ => rfl
  · rfl

end Write

/-! ## Edits that write -/

namespace Edit

theorem run_onSection {values changed : KeyMap Value} {change : Value → Except ValueError Value}
    (h : d.stateSection = .ok (.map values)) (hchange : change (.map values) = .ok (.map changed)) :
    (onSection change).run.run d = (.ok (), d.withSection changed) := by
  obtain ⟨entries, hstate, hfound⟩ := exists_of_stateSection h
  have hreplace := Value.replaceKey_map hfound (.map changed)
  rw [← hstate] at hreplace
  rw [onSection, run_bind_ok (run_get d), h, run_bind_ok (run_lift _ d), hchange,
    CommandError.ofValue_ok, run_bind_ok (run_lift _ d), hreplace, CommandError.ofValue_ok,
    run_bind_ok (run_lift _ d), withSection, hstate]
  rfl

theorem run_setVariable (h : d.HasSection) (name : String) (v : Value) :
    (setVariable name v).run.run d = (.ok (), d.write name v) := by
  obtain ⟨values, hsection⟩ := h
  rw [write_of_section hsection]
  exact run_onSection hsection (Value.insertKey_map v)

theorem run_onVariable {old new : Value} {change : Value → Except ValueError Value}
    (h : d.stateVariable name = .ok old) (hchange : change old = .ok new) :
    (onVariable name change).run.run d = (.ok (), d.write name new) := by
  obtain ⟨values, hsection⟩ := HasSection.of_stateVariable h
  rw [stateVariable_of_section hsection, CommandError.ofValue_eq_ok_iff] at h
  rw [write_of_section hsection]
  refine run_onSection hsection ?_
  rw [h]
  change (do (Value.map values).replaceKey name (← change old)) = _
  rw [hchange]
  exact Value.replaceKey_map (Value.getKey_eq_ok_iff.1 h) new

theorem run_enterState {n : Int64} (h : d.stateVariable "state_counter" = .ok (.int n))
    (state : Int64) : (enterState state).run.run d =
      (.ok (), (d.write "state" (.int state)).write "state_counter"
        (.int (Number.Word.clamp (n.toInt + 1)))) := by
  have hsection := HasSection.of_stateVariable h
  rw [enterState, run_bind_ok (run_setVariable hsection "state" (.int state))]
  obtain ⟨values, hvalues⟩ := hsection.write "state" (.int state)
  have hcounter := hsection.stateVariable_write "state" "state_counter" (.int state)
  rw [if_neg (by decide), h, stateVariable_of_section hvalues,
    CommandError.ofValue_eq_ok_iff] at hcounter
  rw [write_of_section hvalues]
  refine run_onSection hvalues ?_
  rw [hcounter]
  rfl

theorem exists_of_onSection {t : Download} {change : Value → Except ValueError Value}
    (h : (onSection change).run.run d = (.ok (), t)) :
    ∃ old new, d.stateSection = .ok old ∧ change old = .ok new := by
  rw [onSection, run_bind_ok (run_get d)] at h
  cases hsection : d.stateSection with
  | error c =>
    rw [hsection] at h
    cases h
  | ok old =>
    rw [hsection, run_bind_ok (run_lift _ d)] at h
    cases hchange : change old with
    | error c =>
      rw [hchange] at h
      cases h
    | ok new => exact ⟨old, new, rfl, hchange⟩

/-- A variable that was written is in a section. -/
theorem hasSection_of_setVariable {t : Download}
    (h : (setVariable name v).run.run d = (.ok (), t)) : d.HasSection := by
  obtain ⟨old, new, hsection, hinsert⟩ := exists_of_onSection h
  cases old with
  | map values => exact ⟨values, hsection⟩
  | _ => cases hinsert

end Edit

/-! ## Lists among the variables -/

namespace Edit

theorem run_pushUnique {items : List Value} (h : d.stateVariable name = .ok (.list items))
    (args : Value) : (ListOperation.pushUnique.perform name args).run.run d =
      (.ok .empty, d.write name (.list (pushedOnce items args))) := by
  have hchange : (do
      if ← (Value.list items).contains args.argument then return Value.list items
      else (Value.list items).push (appended args) : Except ValueError Value) =
        .ok (.list (pushedOnce items args)) := by
    have hcontains : (Value.list items).contains args.argument =
        .ok (decide (args.argument ∈ items)) :=
      congrArg Except.ok (by simp [List.any_beq'])
    rw [hcontains, pushedOnce]
    by_cases hmem : args.argument ∈ items
    · rw [if_pos hmem, decide_eq_true hmem]
      rfl
    · rw [if_neg hmem, decide_eq_false hmem]
      rfl
  exact run_bind_ok (run_onVariable h hchange)

theorem run_remove {items : List Value} (h : d.stateVariable name = .ok (.list items))
    (args : Value) : (ListOperation.remove.perform name args).run.run d =
      (.ok .empty, d.write name (.list (items.filter (· != args.argument)))) :=
  run_bind_ok (run_onVariable h rfl)

end Edit

end Download

end TorrentControl
