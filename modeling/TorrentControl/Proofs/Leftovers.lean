import Mathlib.Data.List.Induction
import TorrentControl.Proofs.Mirror

/-! # What clearing a registry leaves in its method table

A table that is attached to a registry hears of each change at once. Keys that are registered or erased
come and go in both. Clearing tells the table nothing, so what was public stays in the table until it is
registered anew. Apart from such leftovers the table has the public entries after each change, and
which keys are left over can be said of the changes alone. -/

namespace TorrentControl

/-! ## Changes -/

namespace Registry

/-- What can be done to a registry. It is cleared when the engine stops. -/
inductive Change where
  | insert (key : String) (callable : Callable) (flags : EntryFlags) (signature help : String)
  | insertAlias (key : String) (ownsKey : Bool) (source : String)
  | erase (key : String)
  | clear
deriving DecidableEq

/-- The registry after a change, unless the change is rejected. -/
def change (r : Registry) : Change → Except RegistryError Registry
  | .insert key callable flags signature help => r.insert key callable flags signature help
  | .insertAlias key ownsKey source => r.insertAlias key ownsKey source
  | .erase key => .ok (r.erase key).2
  | .clear => .ok r.clear

/-- A change that the registry cannot make: the key is taken, or there is no callable to share. -/
def Rejects (r : Registry) : Change → Prop
  | .insert key .. => r.contains key = true
  | .insertAlias key _ source => r.contains source = false ∨ r.contains key = true
  | .erase _ => False
  | .clear => False

variable {r : Registry}

theorem insertEntry_error {key : String} {entry : CommandEntry} {error : RegistryError}
    (h : r.insertEntry key entry = .error error) : r.contains key = true := by
  unfold insertEntry at h
  split at h
  · assumption
  · cases h

theorem rejects_of_error {change : Change} {error : RegistryError}
    (h : r.change change = .error error) : r.Rejects change := by
  cases change with
  | insert key callable flags signature help =>
    exact insertEntry_error (r := { r with registrations := r.registrations + 1 }) h
  | insertAlias key ownsKey source =>
    simp only [Registry.change, insertAlias] at h
    split at h
    · rename_i hsource
      refine .inl ?_
      rw [contains, Bool.eq_false_iff, Ne, KeyMap.contains_iff_find?, Option.not_isSome_iff_eq_none]
      exact hsource
    · exact .inr (insertEntry_error h)
  | erase key => cases h
  | clear => cases h

end Registry

namespace Rpc

/-! ## A registry with its table -/

/-- A registry and the method table that is attached to it. -/
structure Attachment where
  registry : Registry
  table : MethodTable
deriving DecidableEq

namespace Attachment

open Registry (Change)

/-- The table hears what the registry has to tell. -/
def listen (r : Registry) (table : MethodTable) : Attachment :=
  let (notices, taken) := r.takeNotices
  ⟨taken, table.hearAll notices⟩

/-- A fresh table is attached in place of any other bridge. It does not hear what was told before. -/
def start (r : Registry) : Attachment :=
  listen (r.takeNotices.2.attach .everything) .empty

/-- A change, which leaves both as they were if it is rejected. -/
def step (a : Attachment) (change : Change) : Attachment :=
  match a.registry.change change with
  | .ok r => listen r a.table
  | .error _ => a

/-- Changes one after the other. -/
def run (a : Attachment) (changes : List Change) : Attachment :=
  changes.foldl step a

theorem run_append (a : Attachment) (changes later : List Change) :
    a.run (changes ++ later) = (a.run changes).run later :=
  List.foldl_append

/-- The registry tells everything to the table, the table has heard it, and both are in order. -/
structure InStep (a : Attachment) : Prop where
  bridge : a.registry.bridge = some .everything
  taken : a.registry.notices = []
  ordered : KeyMap.Ordered a.registry.entries
  table_ordered : KeyMap.Ordered a.table

variable {a : Attachment} {r t : Registry} {key : String} {entry : CommandEntry}

theorem inStep_listen (hb : r.bridge = some .everything) (ho : KeyMap.Ordered r.entries)
    {table : MethodTable} (ht : KeyMap.Ordered table) : (listen r table).InStep :=
  ⟨hb, rfl, ho, MethodTable.ordered_hearAll ht r.notices⟩

theorem quiet_takeNotices (h : KeyMap.Ordered r.entries) :
    Quiet { r.takeNotices.2 with bridge := none } :=
  ⟨rfl, rfl, h⟩

theorem inStep_start (h : KeyMap.Ordered r.entries) : (start r).InStep := by
  refine inStep_listen (r := r.takeNotices.2.attach .everything) ?_ ?_ KeyMap.ordered_nil
  · rfl
  · exact h

theorem find?_start (h : KeyMap.Ordered r.entries) (key : String) :
    KeyMap.find? (start r).table key = (start r).registry.methodInfo? key :=
  (quiet_takeNotices h).attach.heard key

/-! ## One change -/

/-- What a change can do to a key. -/
inductive Turn (key : String) (a b : Attachment) : Change → Prop
  | kept {change : Change} (hstays : change ≠ .clear)
      (hregistry : b.registry.methodInfo? key = a.registry.methodInfo? key)
      (htable : KeyMap.find? b.table key = KeyMap.find? a.table key) : Turn key a b change
  | told {change : Change} (hstays : change ≠ .clear)
      (hpublic : (a.registry.methodInfo? key).isSome ∨ (b.registry.methodInfo? key).isSome)
      (htable : KeyMap.find? b.table key = b.registry.methodInfo? key) : Turn key a b change
  | cleared (hgone : b.registry.methodInfo? key = none)
      (htable : KeyMap.find? b.table key = KeyMap.find? a.table key) : Turn key a b .clear

variable {change : Change} {table : MethodTable}

/-- A table that has heard all hears next what one change tells. -/
theorem table_listen (hn : r.notices = []) {notices : List Notice}
    (ht : t.notices = r.notices ++ notices) : (listen t table).table = table.hearAll notices := by
  rw [hn, List.nil_append] at ht
  exact congrArg table.hearAll ht

/-- Only the new key is touched, and the table hears of it if the entry is public. -/
theorem turn_insertEntry (h : a.InStep) {n : Nat}
    (hinsert : { a.registry with registrations := n }.insertEntry key entry = .ok t)
    (hstays : change ≠ .clear) (other : String) : Turn other a (listen t a.table) change := by
  have hregistry : (listen t a.table).registry.methodInfo? other = if entry.isPublic ∧ key = other
      then some (.ofEntry entry) else a.registry.methodInfo? other :=
    Registry.methodInfo?_insertEntry hinsert other
  have hnotices := congrArg Registry.notices (Registry.insertEntry_told (by exact h.bridge) hinsert)
  have htable := a.table.find?_hearAll_publication key entry entry.isPublic other
  rw [← table_listen h.taken hnotices] at htable
  by_cases htold : entry.isPublic ∧ key = other
  · rw [if_pos htold] at hregistry htable
    exact .told hstays (.inr (Option.isSome_of_eq_some hregistry)) (htable.trans hregistry.symm)
  · rw [if_neg htold] at hregistry htable
    exact .kept hstays hregistry htable

/-- Only the erased key is touched, and the table hears of it if its entry was public. -/
theorem turn_erase (h : a.InStep) (key other : String) :
    Turn other a (listen (a.registry.erase key).2 a.table) (.erase key) := by
  have hstays : Change.erase key ≠ .clear := nofun
  cases hkey : a.registry.find? key with
  | none =>
    rw [Registry.erase_of_free hkey]
    refine .kept hstays rfl (congrArg (KeyMap.find? · other) ?_)
    exact congrArg a.table.hearAll h.taken
  | some entry =>
    have hregistry : (listen (a.registry.erase key).2 a.table).registry.methodInfo? other = _ :=
      Registry.methodInfo?_erase hkey other
    have hnotices := congrArg Registry.notices (Registry.erase_told h.bridge hkey)
    have htable := a.table.find?_hearAll_withdrawn key entry.isPublic other
    rw [← table_listen h.taken hnotices] at htable
    by_cases htold : entry.isPublic ∧ key = other
    · rw [if_pos htold] at hregistry htable
      have hpublic : (a.registry.methodInfo? other).isSome := by
        rw [← htold.2, Registry.methodInfo?, hkey, Option.filter_some, if_pos htold.1]
        rfl
      exact .told hstays (.inl hpublic) (htable.trans hregistry.symm)
    · rw [if_neg htold] at hregistry htable
      exact .kept hstays hregistry htable

/-- A rejected change leaves everything as it was. Clearing tells the table nothing. -/
theorem turn_step (h : a.InStep) (change : Change) (key : String) :
    Turn key a (a.step change) change := by
  unfold step
  split
  · rename_i t hchange
    cases change with
    | insert key callable flags signature help => exact turn_insertEntry h hchange (by nofun) _
    | insertAlias key ownsKey source =>
      obtain ⟨_, _, hinsert⟩ := Registry.insertAlias_ok hchange
      exact turn_insertEntry h hinsert (by nofun) _
    | erase key =>
      cases hchange
      exact turn_erase h key _
    | clear =>
      cases hchange
      have htable : (listen a.registry.clear a.table).table = a.table :=
        congrArg a.table.hearAll h.taken
      exact .cleared rfl (congrArg (KeyMap.find? · key) htable)
  · rename_i hrejected
    refine .kept ?_ rfl rfl
    rintro rfl
    cases hrejected

theorem InStep.step (h : a.InStep) (change : Change) : (a.step change).InStep := by
  unfold Attachment.step
  split
  · rename_i t hchange
    suffices t.bridge = some .everything ∧ KeyMap.Ordered t.entries from
      inStep_listen this.1 this.2 h.table_ordered
    cases change with
    | insert key callable flags signature help =>
      rw [Registry.insertEntry_told (by exact h.bridge) hchange]
      exact ⟨h.bridge, h.ordered.insert _ _⟩
    | insertAlias key ownsKey source =>
      obtain ⟨_, _, hinsert⟩ := Registry.insertAlias_ok hchange
      rw [Registry.insertEntry_told h.bridge hinsert]
      exact ⟨h.bridge, h.ordered.insert _ _⟩
    | erase key =>
      cases hchange
      cases hkey : a.registry.find? key with
      | none =>
        rw [Registry.erase_of_free hkey]
        exact ⟨h.bridge, h.ordered⟩
      | some entry =>
        rw [Registry.erase_told h.bridge hkey]
        exact ⟨h.bridge, h.ordered.erase _⟩
    | clear =>
      cases hchange
      exact ⟨h.bridge, KeyMap.ordered_nil⟩
  · exact h

theorem InStep.run (h : a.InStep) (changes : List Change) : (a.run changes).InStep := by
  induction changes generalizing a with
  | nil => exact h
  | cons change changes ih => exact ih (h.step change)

/-! ## What is left over -/

/-- The key was public when the registry was cleared, and it was not public again since. -/
def LeftOver (a : Attachment) (changes : List Change) (key : String) : Prop :=
  ∃ before later, changes = before ++ .clear :: later ∧
    key ∈ (a.run before).registry.publicKeys ∧
    ∀ since, since <+: later →
      key ∉ (a.run (before ++ .clear :: since)).registry.publicKeys

variable {changes : List Change}

theorem LeftOver.not_mem (h : LeftOver a changes key) :
    key ∉ (a.run changes).registry.publicKeys := by
  obtain ⟨before, later, rfl, -, hsince⟩ := h
  exact hsince later List.prefix_rfl

theorem leftOver_concat_iff : LeftOver a (changes ++ [change]) key ↔
    (change = .clear ∧ key ∈ (a.run changes).registry.publicKeys) ∨
      (LeftOver a changes key ∧ key ∉ (a.run (changes ++ [change])).registry.publicKeys) := by
  constructor
  · rintro ⟨before, later, heq, hpublic, hsince⟩
    rcases List.eq_nil_or_concat later with rfl | ⟨later, last, rfl⟩
    · obtain ⟨rfl, hlast⟩ := List.append_inj' heq rfl
      exact .inl ⟨List.head_eq_of_cons_eq hlast, hpublic⟩
    · rw [List.concat_eq_append, ← List.cons_append, ← List.append_assoc] at heq
      obtain ⟨rfl, hlast⟩ := List.append_inj' heq rfl
      obtain rfl := List.head_eq_of_cons_eq hlast
      refine .inr ⟨⟨before, later, rfl, hpublic, fun since h => ?_⟩, ?_⟩
      · exact hsince since (h.trans (by simp))
      · simpa using hsince _ List.prefix_rfl
  · rintro (⟨rfl, hpublic⟩ | ⟨⟨before, later, rfl, hpublic, hsince⟩, hnow⟩)
    · refine ⟨changes, [], rfl, hpublic, fun since h => ?_⟩
      rw [List.prefix_nil.1 h, run_append]
      exact List.not_mem_nil
    · refine ⟨before, later ++ [change], by simp, hpublic, fun since h => ?_⟩
      rcases List.prefix_concat_iff.1 h with rfl | h
      · simpa using hnow
      · exact hsince since h

/-- A public key is in the table with its entry, and any other key is there if it is left over. -/
structure Accounts (a : Attachment) (changes : List Change) (key : String) : Prop where
  of_mem (hpublic : key ∈ (a.run changes).registry.publicKeys) :
    KeyMap.find? (a.run changes).table key = (a.run changes).registry.methodInfo? key
  of_not_mem (hhidden : key ∉ (a.run changes).registry.publicKeys) :
    (KeyMap.find? (a.run changes).table key).isSome ↔ LeftOver a changes key

theorem Accounts.concat (ha : a.InStep) (h : Accounts a changes key) (change : Change) :
    Accounts a (changes ++ [change]) key := by
  have hbefore := ha.run changes
  have hafter := ha.run (changes ++ [change])
  have hturn : Turn key (a.run changes) (a.run (changes ++ [change])) change := by
    rw [run_append]
    exact turn_step hbefore change key
  have hpublic := Registry.mem_publicKeys_iff hbefore.ordered key
  have hpublic' := Registry.mem_publicKeys_iff hafter.ordered key
  cases hturn with
  | kept hstays hregistry htable =>
    rw [hregistry, ← hpublic] at hpublic'
    refine ⟨fun hmem => ?_, fun hmem => ?_⟩
    · rw [htable, hregistry, h.of_mem (hpublic'.1 hmem)]
    · rw [htable, h.of_not_mem (mt hpublic'.2 hmem), leftOver_concat_iff]
      simp only [hstays, hmem, false_and, false_or, not_false_iff, and_true]
  | told hstays honce htable =>
    refine ⟨fun _ => htable, fun hmem => ?_⟩
    have hwas := hpublic.2 (honce.resolve_right (mt hpublic'.2 hmem))
    have hnone : ¬LeftOver a changes key := fun hleft => hleft.not_mem hwas
    rw [htable, ← hpublic', leftOver_concat_iff]
    simp only [hstays, hmem, hnone, false_and, or_false]
  | cleared hgone htable =>
    have hmem : key ∉ (a.run (changes ++ [.clear])).registry.publicKeys := by
      rw [hpublic', hgone]
      exact Bool.false_ne_true
    refine ⟨fun hmem' => (hmem hmem').elim, fun _ => ?_⟩
    rw [htable, leftOver_concat_iff]
    by_cases hwas : key ∈ (a.run changes).registry.publicKeys
    · rw [h.of_mem hwas, ← hpublic]
      simp only [hwas, true_and, true_or]
    · rw [h.of_not_mem hwas]
      simp only [hwas, hmem, and_false, false_or, not_false_iff, and_true]

theorem accounts_start (h : KeyMap.Ordered r.entries) (changes : List Change) (key : String) :
    Accounts (start r) changes key := by
  induction changes using List.reverseRecOn with
  | nil =>
    refine ⟨fun _ => find?_start h key, fun hhidden => ?_⟩
    have hnone : ¬LeftOver (start r) [] key := fun ⟨before, _, heq, _⟩ => by simp at heq
    have hpublic := Registry.mem_publicKeys_iff (inStep_start h).ordered key
    rw [run, List.foldl_nil, find?_start h, ← hpublic]
    exact iff_of_false hhidden hnone
  | append_singleton changes change ih => exact ih.concat (inStep_start h) change

/-- **Only what was public when the registry was cleared can part the two.** A change that the registry
rejects leaves both as they were, and the table has exactly the public entries unless a key is left
over. -/
theorem table_mirrors_iff (h : KeyMap.Ordered r.entries) (changes : List Change) :
    let a := (start r).run changes
    (∀ change error, a.registry.change change = .error error →
        a.registry.Rejects change ∧ a.step change = a) ∧
      (a.table = a.registry.methods ↔ ∀ key, ¬LeftOver (start r) changes key) := by
  intro a
  have ha : a.InStep := (inStep_start h).run changes
  have htable := accounts_start h changes
  refine ⟨fun change error hrejected => ⟨Registry.rejects_of_error hrejected, ?_⟩, ?_, fun hnone => ?_⟩
  · rw [step, hrejected]
  · intro hmirrors key hleft
    have hpublic := ((htable key).of_not_mem hleft.not_mem).2 hleft
    rw [hmirrors, Registry.find?_methods ha.ordered, ← Registry.mem_publicKeys_iff ha.ordered] at hpublic
    exact hleft.not_mem hpublic
  · refine ha.table_ordered.ext (Registry.ordered_methods ha.ordered) fun key => ?_
    rw [Registry.find?_methods ha.ordered]
    by_cases hpublic : key ∈ a.registry.publicKeys
    · exact (htable key).of_mem hpublic
    · have hgone := mt ((htable key).of_not_mem hpublic).1 (hnone key)
      rw [Registry.mem_publicKeys_iff ha.ordered] at hpublic
      rw [Option.not_isSome_iff_eq_none.1 hgone, Option.not_isSome_iff_eq_none.1 hpublic]

/-- A registry with one public entry. -/
def opening : Registry :=
  ⟨[("open", ⟨.generic .eraseMethod, 0, .published, "i:", "Opens things."⟩)], 1, none, []⟩

/-- What was erased cannot be left over, nor can it get an alias. -/
theorem erased_mirrors : KeyMap.Ordered opening.entries ∧
    let changes := [.erase "open", .clear]
    let a := (start opening).run changes
    a.table = a.registry.methods ∧ a.step (.insertAlias "shut" true "open") = a ∧
      ∀ key, ¬LeftOver (start opening) changes key := by
  have hordered : KeyMap.Ordered opening.entries := List.pairwise_singleton _ _
  obtain ⟨hrejected, hmirrors⟩ := table_mirrors_iff hordered [.erase "open", .clear]
  have htable : ((start opening).run [.erase "open", .clear]).table =
      ((start opening).run [.erase "open", .clear]).registry.methods := by decide
  refine ⟨hordered, htable, (hrejected _ (.unknownSource "shut" "open") ?_).2, hmirrors.1 htable⟩
  decide

/-- What is cleared stays in the table, although there is nothing to call any more. -/
theorem cleared_table_keeps : ¬∀ (r : Registry) (changes : List Change), KeyMap.Ordered r.entries →
    ((start r).run changes).table = ((start r).run changes).registry.methods := by
  intro h
  have hkept := h opening [.clear] (List.pairwise_singleton _ _)
  revert hkept
  decide

end Attachment

end Rpc

end TorrentControl
