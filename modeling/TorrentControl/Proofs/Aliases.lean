import TorrentControl.Proofs.Addressing
import TorrentControl.Proofs.Leftovers

/-! # Aliases

An alias shares the callable that its source has at the time it is made. From then on the two
entries have nothing to do with each other: the source can be erased, and its key can be given to
something else. A call by the alias is what a call of the source was then, and only the text of a
refusal tells by which key a callable was called. -/

namespace TorrentControl

/-! ## What an alias is bound to -/

/-- The entry that a second key for the callable gets. -/
def CommandEntry.aliased (entry : CommandEntry) (ownsKey : Bool) : CommandEntry :=
  { entry with flags := { entry.flags with isShared := true, ownsKey } }

namespace Registry

variable {r t : Registry} {key source : String} {ownsKey : Bool} {entry : CommandEntry}

theorem find?_insertAlias (h : r.insertAlias key ownsKey source = .ok t) :
    ∃ entry, r.find? source = some entry ∧ t.find? key = some (entry.aliased ownsKey) := by
  obtain ⟨entry, hsource, hinsert⟩ := insertAlias_ok h
  refine ⟨entry, hsource, ?_⟩
  rw [find?_insertEntry hinsert, if_pos rfl]
  rfl

/-! ## Later changes -/

/-- The change does not take the entry of the key away. -/
def Change.Spares (change : Change) (key : String) : Prop :=
  change ≠ .erase key ∧ change ≠ .clear

instance (change : Change) (key : String) : Decidable (change.Spares key) :=
  inferInstanceAs (Decidable (_ ∧ _))

/-- The registry after a change, which is as before if the change is rejected. -/
def changed (r : Registry) (change : Change) : Registry :=
  match r.change change with
  | .ok t => t
  | .error _ => r

def changedAll (r : Registry) (changes : List Change) : Registry :=
  changes.foldl changed r

/-- An entry goes under no key that is taken. -/
theorem find?_insertEntry_of_taken {other : String} {found : CommandEntry}
    (h : r.insertEntry other found = .ok t) (hkey : r.find? key = some entry) :
    t.find? key = some entry := by
  rw [find?_insertEntry h, if_neg]
  · exact hkey
  · rintro rfl
    exact nomatch (insertEntry_ok h).1.symm.trans hkey

/-- A key that is not erased keeps its entry through every change. -/
theorem find?_changed {change : Change} (h : change.Spares key) (hkey : r.find? key = some entry) :
    (r.changed change).find? key = some entry := by
  obtain ⟨herase, hclear⟩ := h
  unfold changed
  split
  · rename_i t hchange
    cases change with
    | insert other callable flags signature help => exact find?_insertEntry_of_taken hchange hkey
    | insertAlias other ownsKey source =>
      obtain ⟨found, -, hinsert⟩ := insertAlias_ok hchange
      exact find?_insertEntry_of_taken hinsert hkey
    | erase other =>
      cases hchange
      rw [find?_erase, if_neg fun same : other = key => herase (same ▸ rfl), hkey]
    | clear => exact (hclear rfl).elim
  · exact hkey

theorem find?_changedAll {changes : List Change} (h : ∀ change ∈ changes, change.Spares key)
    (hkey : r.find? key = some entry) : (r.changedAll changes).find? key = some entry := by
  induction changes generalizing r with
  | nil => exact hkey
  | cons change changes ih =>
    obtain ⟨hchange, hchanges⟩ := List.forall_mem_cons.1 h
    exact ih hchanges (find?_changed hchange hkey)

end Registry

/-! ## Calls -/

namespace Engine

variable {e : Engine} {entry second : CommandEntry} {target : Target}

/-- Of an entry, only the callable matters to a call. -/
theorem callEntry_congr (h : entry.callable = second.callable) (key : String) (target : Target)
    (args : Value) : e.callEntry key entry target args = e.callEntry key second target args := by
  simp only [callEntry, Reentry.outermost, Task.callEntry_eq, h]

/-- The key that an entry is called by does not matter where the target suits it. -/
theorem callEntry_of_suits (h : target.Suits e.session entry.kind) (key other : String)
    (args : Value) : e.callEntry key entry target args = e.callEntry other entry target args := by
  obtain ⟨inv, hreceives⟩ := Callable.exists_receives_iff.2 h
  simp only [callEntry, Reentry.outermost, Task.callEntry_eq, run_bind, run_session,
    hreceives.aim key, hreceives.aim other]

theorem callEntry_refused (h : ¬target.Suits e.session entry.kind) (key : String) (args : Value) :
    e.callEntry key entry target args =
      (.error (.failed (target.refusal e.session key entry.kind)), e) := by
  simp only [callEntry, Reentry.outermost, Task.callEntry_eq, run_bind, run_session,
    Callable.aim_refused h key]
  rfl

/-- Calls by one key come to what calls of the entry by the other key come to. Where the target does
not suit the entry both are refused, each by its key, and change nothing. -/
structure CallsAlike (e : Engine) (key other : String) (entry : CommandEntry) (target : Target)
    (args : Value) : Prop where
  of_suits (h : target.Suits e.session entry.kind) :
    e.call key target args = e.callEntry other entry target args
  of_not_suits (h : ¬target.Suits e.session entry.kind) :
    e.call key target args = (.error (.failed (target.refusal e.session key entry.kind)), e) ∧
      e.callEntry other entry target args =
        (.error (.failed (target.refusal e.session other entry.kind)), e)

theorem callsAlike_of_call {key : String} {args : Value}
    (h : e.call key target args = e.callEntry key entry target args) (other : String) :
    e.CallsAlike key other entry target args where
  of_suits hsuits := h.trans (callEntry_of_suits hsuits key other args)
  of_not_suits hsuits :=
    ⟨h.trans (callEntry_refused hsuits key args), callEntry_refused hsuits other args⟩

end Engine

/-- **An alias is for good what its source was when it was made.** It keeps the callable, the
visibility and the texts of the source through all changes that do not erase the alias itself, and
it is marked as shared, and as owning its key if it does. So a call by it is a call of any entry
with that callable, on every engine that has come to these commands; the one thing that depends on
the key is the text of a refusal. -/
theorem Registry.alias_lasts {r t : Registry} {key source : String} {ownsKey : Bool}
    (h : r.insertAlias key ownsKey source = .ok t) :
    ∃ entry, r.find? source = some entry ∧
      ∀ changes : List Change, (∀ change ∈ changes, change.Spares key) →
        (t.changedAll changes).find? key = some (entry.aliased ownsKey) ∧
        ∀ e : Engine, e.commands = t.changedAll changes →
          ∀ (second : CommandEntry) (target : Target) (args : Value),
            second.callable = entry.callable →
              e.call key target args = e.callEntry key second target args ∧
              ∀ other, e.CallsAlike key other second target args := by
  obtain ⟨entry, hsource, hfind⟩ := find?_insertAlias h
  refine ⟨entry, hsource, fun changes hspares => ?_⟩
  have hkept := find?_changedAll hspares hfind
  refine ⟨hkept, fun e he second target args hsecond => ?_⟩
  have hentry : e.commands.find? key = some (entry.aliased ownsKey) := he ▸ hkept
  have hcallable : (entry.aliased ownsKey).callable = second.callable := hsecond.symm
  have hcall : e.call key target args = e.callEntry key second target args :=
    (Engine.call_eq_callEntry hentry target args).trans
      (Engine.callEntry_congr hcallable key target args)
  exact ⟨hcall, Engine.callsAlike_of_call hcall⟩

/-- The alias of an alias, after the key that it came by was given to something else. -/
theorem Registry.alias_outlives_source :
    let shown : CommandEntry := ⟨.generic .print, 0, ⟨true, true, true⟩, "i:s", "Prints."⟩
    let later : List Change :=
      [.erase "show", .insert "show" (.generic .existsMethod) .none "" "", .erase "say"]
    ∃ t, (⟨[("say", shown), ("show", shown)], 1, none, []⟩ : Registry).insertAlias "tell" false
        "show" = .ok t ∧
      (∀ change ∈ later, change.Spares "tell") ∧
      let e := { Engine.bare .empty .empty with commands := t.changedAll later }
      e.commands.find? "tell" = some ⟨.generic .print, 0, ⟨true, false, true⟩, "i:s", "Prints."⟩ ∧
        e.call "tell" .generic (.text "hi") = e.callEntry "tell" shown .generic (.text "hi") := by
  intro shown later
  obtain ⟨t, hmade⟩ : ∃ t, (⟨[("say", shown), ("show", shown)], 1, none, []⟩ : Registry).insertAlias
      "tell" false "show" = .ok t := ⟨_, rfl⟩
  refine ⟨t, hmade, by decide, ?_⟩
  intro e
  obtain ⟨entry, hentry, halias⟩ := alias_lasts hmade
  obtain rfl : shown = entry := Option.some.inj hentry
  obtain ⟨hfind, hcalls⟩ := halias later (by decide)
  exact ⟨hfind, (hcalls e rfl shown .generic (.text "hi") rfl).1⟩

end TorrentControl
