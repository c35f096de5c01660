import TorrentControl.Proofs.Variables

/-! # Switching downloads with a damaged state

A download is made active or inactive by writing its flags, then the variable `state`, and then the
counter of these changes, which has to be read first. Where it cannot be read, because there is no
section of variables, no counter in it, or one that is no number, the switch fails, and what it has
written stays written. -/

namespace TorrentControl

theorem CommandError.ofValue_bind {α β : Type} (x : Except ValueError α)
    (f : α → Except ValueError β) : ofValue (x >>= f) = ofValue x >>= fun a => ofValue (f a) := by
  cases x <;> rfl

theorem Value.OrderedEntries.of_find? {entries : KeyMap Value} (h : OrderedEntries entries)
    {key : String} {v : Value} (hv : KeyMap.find? entries key = some v) : v.Ordered := by
  induction entries with
  | nil => cases hv
  | cons entry rest ih =>
    obtain ⟨hentry, hrest⟩ := h
    rw [KeyMap.find?_cons] at hv
    split at hv
    · cases hv
      exact hentry
    · exact ih hrest hv

namespace Download

variable {d t : Download} {name : String} {v : Value}

/-! ## Writing what is there already -/

/-- The variables of the section. -/
def stateEntries (d : Download) : Except CommandError (KeyMap Value) := do
  CommandError.ofValue (← d.stateSection).asMap

theorem hasSection_iff : d.HasSection ↔ ∃ values, d.stateEntries = .ok values := by
  constructor
  · rintro ⟨values, hsection⟩
    exact ⟨values, Outcome.bind_eq_ok_iff.2 ⟨_, hsection, rfl⟩⟩
  · rintro ⟨values, hvariables⟩
    obtain ⟨found, hsection, hmap⟩ := Outcome.bind_eq_ok_iff.1 hvariables
    cases found with
    | map entries => exact ⟨entries, hsection⟩
    | _ => cases hmap

theorem write_of_not_hasSection (h : ¬d.HasSection) (name : String) (v : Value) :
    d.write name v = d := by
  unfold write
  split
  · rename_i values hsection
    exact absurd ⟨values, hsection⟩ h
  · rfl

/-- **Writing a variable changes nothing if and only if there is no section to write it to, or it was
there with this value.** -/
theorem write_eq_self_iff (hd : d.state.Ordered) :
    d.write name v = d ↔ (d.HasSection → d.stateVariable name = .ok v) := by
  constructor
  · intro hwrite hsection
    have hread := hsection.stateVariable_write name name v
    rwa [if_pos rfl, hwrite] at hread
  · intro hread
    by_cases hsection : d.HasSection
    · obtain ⟨values, hvalues⟩ := hsection
      obtain ⟨entries, hentries, hfound⟩ := exists_of_stateSection hvalues
      have hvariable := hread ⟨values, hvalues⟩
      rw [stateVariable_of_section hvalues, CommandError.ofValue_eq_ok_iff,
        Value.getKey_eq_ok_iff] at hvariable
      rw [hentries] at hd
      obtain ⟨hordered, hinner⟩ := hd
      obtain ⟨hvariables, -⟩ := Value.OrderedEntries.of_find? hinner hfound
      rw [write_of_section hvalues, withSection, KeyMap.Ordered.insert_self hvariables hvariable]
      simp only [hentries, KeyMap.Ordered.insert_self hordered hfound]
      rw [← hentries]
    · exact write_of_not_hasSection hsection name v

/-! ## The counter of changes -/

/-- How often the variable `state` was written. -/
def stateCounter (d : Download) : Except CommandError Int64 := do
  CommandError.ofValue (← d.stateVariable "state_counter").asInt

theorem stateCounter_eq_ok_iff {n : Int64} :
    d.stateCounter = .ok n ↔ d.stateVariable "state_counter" = .ok (.int n) := by
  rw [stateCounter, Outcome.bind_eq_ok_iff]
  constructor
  · rintro ⟨found, hfound, hint⟩
    cases found with
    | int m =>
      cases hint
      exact hfound
    | _ => cases hint
  · exact fun h => ⟨_, h, rfl⟩

/-- Without a section the counter is missed for the same reason. -/
theorem stateCounter_of_stateEntries {c : CommandError} (h : d.stateEntries = .error c) :
    d.stateCounter = .error c := by
  have hvariable : d.stateVariable "state_counter" = .error c := by
    unfold stateVariable Value.getKey
    simp only [CommandError.ofValue_bind]
    exact Outcome.bind_eq_error_of h _
  rw [stateCounter, hvariable]
  rfl

namespace Edit

theorem run_onSection_error {change : Value → Except ValueError Value} {c : CommandError}
    (h : (do CommandError.ofValue (change (← d.stateSection))) = .error c) :
    (onSection change).run.run d = (.error c, d) := by
  rw [onSection, run_bind_ok (run_get d)]
  cases hsection : d.stateSection with
  | error e =>
    rw [hsection] at h
    cases h
    exact run_bind_error (run_lift _ d)
  | ok old =>
    rw [hsection] at h
    rw [run_bind_ok (run_lift _ d)]
    exact run_bind_error (h ▸ run_lift _ d)

/-- A variable is not written where there is no section. -/
theorem run_setVariable_error {c : CommandError} (h : d.stateEntries = .error c) (name : String)
    (v : Value) : (setVariable name v).run.run d = (.error c, d) := by
  refine run_onSection_error ?_
  simp only [Value.insertKey, CommandError.ofValue_bind]
  exact Outcome.bind_eq_error_of h _

/-- Nothing is counted where the counter cannot be read. -/
theorem run_count_error {c : CommandError} (h : d.stateCounter = .error c)
    (count : Value → Int64 → Except ValueError Value) :
    (onSection fun values => do
      count values (← (← values.getKey "state_counter").asInt)).run.run d = (.error c, d) := by
  refine run_onSection_error ?_
  simp only [stateCounter, stateVariable, bind_assoc] at h
  simp only [CommandError.ofValue_bind, ← bind_assoc]
  exact Outcome.bind_eq_error_of h _

/-- The counter is read after the first write, but it is the one from before. -/
theorem run_enterState_error {c : CommandError} (h : d.stateCounter = .error c) (state : Int64) :
    (enterState state).run.run d = (.error c, d.write "state" (.int state)) := by
  cases hvariables : d.stateEntries with
  | error b =>
    obtain rfl : b = c := Except.error.inj ((stateCounter_of_stateEntries hvariables).symm.trans h)
    have hsection : ¬d.HasSection := fun hsection => by
      obtain ⟨values, hvalues⟩ := hasSection_iff.1 hsection
      cases hvalues.symm.trans hvariables
    rw [write_of_not_hasSection hsection]
    exact run_bind_error (run_setVariable_error hvariables _ _)
  | ok values =>
    have hsection := hasSection_iff.2 ⟨values, hvariables⟩
    have hcounter := hsection.stateVariable_write "state" "state_counter" (.int state)
    rw [if_neg (by decide)] at hcounter
    rw [stateCounter, ← hcounter] at h
    rw [enterState, run_bind_ok (run_setVariable hsection "state" (.int state))]
    exact run_count_error h _

end Edit

/-! ## Switching -/

/-- Makes the download active or inactive. -/
def Edit.switch (active : Bool) : Edit Unit :=
  if active then resume else pause

/-- The download with its flags as a switch writes them: what becomes active is opened, and nothing is
closed. -/
def withActive (d : Download) (active : Bool) : Download :=
  { d with isOpen := d.isOpen || active, isActive := active }

/-- The second download is the first one, made active or inactive. -/
structure Switches (active : Bool) (d t : Download) : Prop where
  fields : t = { d.withActive active with state := t.state }
  state : t.stateVariable "state" = .ok (.int (Number.Word.ofBool active))
  counter : ∃ n, d.stateCounter = .ok n ∧ t.stateCounter = .ok (Number.Word.clamp (n.toInt + 1))
  others : ∀ name ∉ ["state", "state_counter"], t.stateVariable name = d.stateVariable name
  sections : ∀ key ≠ sectionName, t.state.getKey key = d.state.getKey key

theorem Edit.run_switch (d : Download) (active : Bool) : (switch active).run.run d =
    (enterState (Number.Word.ofBool active)).run.run (d.withActive active) := by
  cases active
  · rw [withActive, Bool.or_false]
    rfl
  · rw [withActive, Bool.or_true]
    rfl

section Switch

variable {active : Bool}

/-- What is read depends on the state, which the flags are no part of. -/
theorem stateVariable_withActive (d : Download) (active : Bool) (name : String) :
    (d.withActive active).stateVariable name = d.stateVariable name := rfl

theorem Edit.run_switch_ok {n : Int64} (h : d.stateCounter = .ok n) (active : Bool) :
    ∃ t, (switch active).run.run d = (.ok (), t) ∧ Switches active d t := by
  have hcounter : (d.withActive active).stateVariable "state_counter" = .ok (.int n) :=
    stateCounter_eq_ok_iff.1 h
  have hsection := HasSection.of_stateVariable hcounter
  have hwritten := hsection.write "state" (.int (Number.Word.ofBool active))
  refine ⟨_, (run_switch d active).trans (run_enterState hcounter _), ?_⟩
  have hread (name : String) := hwritten.stateVariable_write "state_counter" name
    (.int (Number.Word.clamp (n.toInt + 1)))
  simp only [hsection.stateVariable_write] at hread
  constructor
  case fields =>
    obtain ⟨first, hfirst⟩ := exists_state_write (d.withActive active) "state"
      (.int (Number.Word.ofBool active))
    rw [hfirst]
    obtain ⟨second, hsecond⟩ := exists_state_write { d.withActive active with state := first }
      "state_counter" (.int (Number.Word.clamp (n.toInt + 1)))
    rw [hsecond]
  case state => rw [hread]; rfl
  case counter => exact ⟨n, h, stateCounter_eq_ok_iff.2 (by rw [hread]; rfl)⟩
  case others =>
    intro name hname
    simp only [List.mem_cons, List.not_mem_nil, or_false, not_or] at hname
    rw [hread, if_neg (Ne.symm hname.2), if_neg (Ne.symm hname.1), stateVariable_withActive]
  case sections =>
    intro key hkey
    rw [getKey_write _ _ _ hkey, getKey_write _ _ _ hkey]
    rfl

theorem Edit.run_switch_error {c : CommandError} (h : d.stateCounter = .error c) (active : Bool) :
    (switch active).run.run d =
      (.error c, (d.withActive active).write "state" (.int (Number.Word.ofBool active))) := by
  have hcounter : (d.withActive active).stateCounter = .error c := h
  rw [run_switch, run_enterState_error hcounter]

/-- The writes before the counter is read change nothing if what they write was there already. -/
theorem write_withActive_eq_self_iff (hd : d.state.Ordered) :
    (d.withActive active).write "state" v = d ↔
      d.withActive active = d ∧ (d.HasSection → d.stateVariable "state" = .ok v) := by
  rw [← write_eq_self_iff hd]
  constructor
  · intro h
    obtain ⟨state, hwrite⟩ := exists_state_write (d.withActive active) "state" v
    have hflags : d.withActive active = d := by
      have hopen := congrArg isOpen (hwrite.symm.trans h)
      have hactive := congrArg isActive (hwrite.symm.trans h)
      simp only [withActive] at hopen hactive ⊢
      rw [hopen, hactive]
    rw [hflags] at h
    exact ⟨hflags, h⟩
  · rintro ⟨hflags, hwrite⟩
    rwa [hflags]

/-- **What a switch does to a download whose state may be damaged.** It goes through if and only if
the counter can be read, and fails with the error of reading it. If it goes through, the flags, the
variable `state` and the counter are changed and nothing else. If it fails, the flags are written, and
the variable too where there is a section; so the download is as before only if all of this was so
already. -/
theorem failed_switch_changes_nothing_iff (hd : d.state.Ordered) (active : Bool) :
    ((Edit.switch active).run.run d).1 = d.stateCounter.map (fun _ => ()) ∧
    (∀ t, (Edit.switch active).run.run d = (.ok (), t) → Switches active d t) ∧
    ∀ c t, (Edit.switch active).run.run d = (.error c, t) →
      t = (d.withActive active).write "state" (.int (Number.Word.ofBool active)) ∧
      (t = d ↔ d.withActive active = d ∧
        (d.HasSection → d.stateVariable "state" = .ok (.int (Number.Word.ofBool active)))) := by
  -- the downloads beside the outcomes are large terms, so only the outcomes are told apart
  cases hcounter : d.stateCounter with
  | ok n =>
    obtain ⟨t, hrun, hswitches⟩ := Edit.run_switch_ok hcounter active
    rw [hrun]
    refine ⟨rfl, fun u hu => ?_, fun c u hu => (nomatch (Prod.mk.inj hu).1)⟩
    obtain rfl : t = u := congrArg Prod.snd hu
    exact hswitches
  | error c =>
    rw [Edit.run_switch_error hcounter active]
    refine ⟨rfl, fun u hu => (nomatch (Prod.mk.inj hu).1), fun b t ht => ?_⟩
    obtain rfl : (d.withActive active).write _ _ = t := congrArg Prod.snd ht
    exact ⟨rfl, write_withActive_eq_self_iff hd⟩

end Switch

/-- A stopped download whose counter of changes holds a text. -/
def worn : Download :=
  { fresh "a" .zero with
    state := .map [(sectionName, .map [("state", .int 0), ("state_counter", .text "")])] }

/-- It cannot be stopped again, but nothing has changed when that fails. -/
theorem failed_pause_changes_nothing : worn.state.Ordered ∧
    ∃ c, Edit.pause.run.run worn = (.error c, worn) := by
  have hordered : worn.state.Ordered := by
    simp only [worn, Value.Ordered, Value.OrderedEntries, KeyMap.Ordered]
    decide
  obtain ⟨houtcome, -, hfailed⟩ := failed_switch_changes_nothing_iff hordered false
  rcases hrun : (Edit.switch false).run.run worn with ⟨outcome, t⟩
  rw [hrun] at houtcome
  obtain rfl : outcome = .error _ := houtcome
  obtain rfl : t = worn := (hfailed _ t hrun).2.2 ⟨rfl, fun _ => rfl⟩
  exact ⟨hordered, _, hrun⟩

/-- **A switch that fails may leave something behind.** A closed download without a section of
variables cannot be started, but is open and active after that. -/
theorem switch_not_atomic : ¬∀ (d : Download) (active : Bool), d.state.Ordered →
    ∀ c t, (Edit.switch active).run.run d = (.error c, t) → t = d := by
  intro h
  have hleft := h { fresh "a" .zero with state := .empty } true trivial _ _ rfl
  exact absurd (congrArg isActive hleft) (by decide)

end Download

end TorrentControl
