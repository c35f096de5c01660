import TorrentControl.Proofs.KeyMap
import TorrentControl.Proofs.Task
import TorrentControl.Rpc.Reactor

/-! # The method table mirrors the registry

A bridge that takes everything hears of each public entry when it comes and when it goes, and of no
other entry. So a table that has heard all notices looks a key up as the registry does, whatever
edits were made and in whatever order. The reactor hears the notices after each request; from its
start on, its table is the list of the public entries. -/

namespace TorrentControl

/-- What clients are told about an entry. -/
def Rpc.MethodInfo.ofEntry (entry : CommandEntry) : MethodInfo :=
  ⟨entry.signature, entry.help⟩

/-! ## What the bridge is told -/

namespace Registry

variable {r t : Registry} {key : String} {entry : CommandEntry}

theorem tell_of_everything (hb : r.bridge = some .everything) (notice : Notice) :
    r.tell notice = { r with notices := r.notices ++ [notice] } := by
  simp [tell, hb, Bridge.takes]

theorem insertEntry_told (hb : r.bridge = some .everything) (h : r.insertEntry key entry = .ok t) :
    t = { r with
      entries := KeyMap.insert r.entries key entry
      notices := r.notices ++ if entry.isPublic then [publication key entry] else [] } := by
  unfold insertEntry at h
  split at h
  · cases h
  · cases h
    rw [tell_of_everything hb]
    split <;> simp

/-- Without a bridge nobody is told. -/
theorem insertEntry_quiet (hb : r.bridge = none) (h : r.insertEntry key entry = .ok t) :
    t.bridge = none ∧ t.notices = r.notices := by
  unfold insertEntry at h
  split at h
  · cases h
  · cases h
    simp [tell, hb]

theorem erase_of_free (h : r.find? key = none) : (r.erase key).2 = r := by
  rw [erase, h]

theorem erase_told (hb : r.bridge = some .everything) (h : r.find? key = some entry) :
    (r.erase key).2 = { r with
      entries := KeyMap.erase r.entries key
      notices := r.notices ++ if entry.isPublic then [.withdrawn key] else [] } := by
  simp only [erase, h, tell_of_everything hb]
  split <;> simp

/-! ## What clients are to be told -/

/-- What clients are to be told about a key: nothing unless its entry is public. -/
def methodInfo? (r : Registry) (key : String) : Option Rpc.MethodInfo :=
  ((r.find? key).filter CommandEntry.isPublic).map Rpc.MethodInfo.ofEntry

/-- The table that has the public entries and nothing else. -/
def methods (r : Registry) : Rpc.MethodTable :=
  r.publicEntries.map fun entry => (entry.1, Rpc.MethodInfo.ofEntry entry.2)

theorem ordered_methods (h : KeyMap.Ordered r.entries) : KeyMap.Ordered r.methods :=
  (h.filter _).map _

theorem find?_methods (h : KeyMap.Ordered r.entries) (key : String) :
    KeyMap.find? r.methods key = r.methodInfo? key := by
  rw [methods, KeyMap.find?_map, publicEntries, h.find?_filter]
  rfl

theorem mem_publicKeys_iff (h : KeyMap.Ordered r.entries) (key : String) :
    key ∈ r.publicKeys ↔ (r.methodInfo? key).isSome := by
  rw [publicKeys, KeyMap.mem_keys, publicEntries, h.find?_filter, methodInfo?, Option.isSome_map]
  rfl

theorem methodInfo?_insertEntry (h : r.insertEntry key entry = .ok t) (other : String) :
    t.methodInfo? other =
      if entry.isPublic ∧ key = other then some (.ofEntry entry) else r.methodInfo? other := by
  rw [methodInfo?, find?_insertEntry h, methodInfo?]
  by_cases hother : key = other
  · subst hother
    rw [(insertEntry_ok h).1]
    simp [Option.filter_some, apply_ite]
  · simp only [hother, and_false, if_false]

theorem methodInfo?_erase (h : r.find? key = some entry) (other : String) :
    (r.erase key).2.methodInfo? other =
      if entry.isPublic ∧ key = other then none else r.methodInfo? other := by
  rw [methodInfo?, find?_erase, methodInfo?]
  by_cases hother : key = other
  · subst hother
    rw [h]
    simp [Option.filter_some, apply_ite]
  · simp only [hother, and_false, if_false]

end Registry

namespace Rpc

namespace MethodTable

theorem hearAll_append (table : MethodTable) (first later : List Notice) :
    table.hearAll (first ++ later) = (table.hearAll first).hearAll later :=
  List.foldl_append

theorem ordered_hearAll {table : MethodTable} (h : KeyMap.Ordered table) (notices : List Notice) :
    KeyMap.Ordered (table.hearAll notices) := by
  induction notices generalizing table with
  | nil => exact h
  | cons notice notices ih =>
    refine ih ?_
    cases notice with
    | published key signature help => exact h.insert _ _
    | withdrawn key => exact h.erase _

theorem find?_hearAll_publication (table : MethodTable) (key : String) (entry : CommandEntry)
    (told : Bool) (other : String) :
    KeyMap.find? (table.hearAll (if told then [Registry.publication key entry] else [])) other =
      if told ∧ key = other then some (.ofEntry entry) else KeyMap.find? table other := by
  cases told with
  | true =>
    simp only [if_true, true_and]
    exact KeyMap.find?_insert table key other _
  | false =>
    simp only [Bool.false_eq_true, if_false, false_and]
    rfl

theorem find?_hearAll_withdrawn (table : MethodTable) (key : String) (told : Bool)
    (other : String) : KeyMap.find? (table.hearAll (if told then [.withdrawn key] else [])) other =
      if told ∧ key = other then none else KeyMap.find? table other := by
  cases told with
  | true =>
    simp only [if_true, true_and]
    exact KeyMap.find?_erase table key other
  | false =>
    simp only [Bool.false_eq_true, if_false, false_and]
    rfl

end MethodTable

/-- Once the table has heard what the registry told, it has the public entries. -/
structure Mirrors (table : MethodTable) (r : Registry) : Prop where
  bridge : r.bridge = some .everything
  ordered : KeyMap.Ordered r.entries
  heard_ordered : KeyMap.Ordered (table.hearAll r.notices)
  heard (key : String) : KeyMap.find? (table.hearAll r.notices) key =
    ((r.find? key).filter CommandEntry.isPublic).map MethodInfo.ofEntry

namespace Mirrors

variable {table : MethodTable} {r t : Registry}

theorem insertEntry {key : String} {entry : CommandEntry} (h : Mirrors table r)
    (hinsert : r.insertEntry key entry = .ok t) : Mirrors table t := by
  have hinfo := Registry.methodInfo?_insertEntry hinsert
  obtain rfl := Registry.insertEntry_told h.bridge hinsert
  refine ⟨h.bridge, h.ordered.insert key entry, ?_, fun other => ?_⟩
  · rw [MethodTable.hearAll_append]
    exact MethodTable.ordered_hearAll h.heard_ordered _
  · rw [MethodTable.hearAll_append, MethodTable.find?_hearAll_publication, h.heard]
    exact (hinfo other).symm

theorem erase (h : Mirrors table r) (key : String) : Mirrors table (r.erase key).2 := by
  cases hkey : r.find? key with
  | none => rwa [Registry.erase_of_free hkey]
  | some entry =>
    have hinfo := Registry.methodInfo?_erase hkey
    rw [Registry.erase_told h.bridge hkey] at hinfo ⊢
    refine ⟨h.bridge, h.ordered.erase key, ?_, fun other => ?_⟩
    · rw [MethodTable.hearAll_append]
      exact MethodTable.ordered_hearAll h.heard_ordered _
    · rw [MethodTable.hearAll_append, MethodTable.find?_hearAll_withdrawn, h.heard]
      exact (hinfo other).symm

/-- **Whatever an invocation does to the registry, the table keeps up with it.** -/
theorem edit {e f : Engine} {inv : Invocation} (h : Mirrors table e.commands) (hedit : e.Edit inv f) :
    Mirrors table f.commands := by
  cases hedit with
  | spared hsame => exact hsame ▸ h
  | erased key => exact h.erase key
  | inserted _ hinsert =>
    have hcounted : Mirrors table { e.commands with registrations := e.commands.registrations + 1 } :=
      ⟨h.bridge, h.ordered, h.heard_ordered, h.heard⟩
    exact hcounted.insertEntry hinsert
  | aliased _ halias =>
    obtain ⟨_, _, hinsert⟩ := Registry.insertAlias_ok halias
    exact h.insertEntry hinsert

theorem run {e : Engine} (h : Mirrors table e.commands) (left : Nat) (job : Job) (hops : Nat) :
    Mirrors table (e.run (job.run hops left)).2.commands := by
  refine Task.run_keeps (P := fun e => Mirrors table e.commands) (J := fun _ => True)
    (fun _ _ _ _ _ => trivial) ?_ hops ⟨e, left, job⟩ trivial h
  rintro u f g - - hf (_ | ⟨-, hact⟩)
  · exact hf
  · exact hf.edit hact.edit

/-- The same table and registry after the notices were taken. -/
theorem listen {e : Engine} (h : Mirrors table e.commands) :
    Mirrors (Reactor.listen table e).methods (Reactor.listen table e).engine.commands :=
  ⟨h.bridge, h.ordered, h.heard_ordered, h.heard⟩

/-- With no notices left the table is the list of the public entries. -/
theorem eq_publicEntries (h : Mirrors table r) (htaken : r.notices = []) :
    table = r.publicEntries.map fun entry => (entry.1, MethodInfo.ofEntry entry.2) := by
  have hordered := h.heard_ordered
  have hheard := h.heard
  rw [htaken] at hordered hheard
  refine hordered.ext (Registry.ordered_methods h.ordered) fun key => ?_
  exact (hheard key).trans (Registry.find?_methods h.ordered key).symm

end Mirrors

/-! ## The start -/

/-- A registry that was made without a bridge: ordered, and with nothing told. -/
structure Quiet (r : Registry) : Prop where
  bridge : r.bridge = none
  notices : r.notices = []
  ordered : KeyMap.Ordered r.entries

theorem Quiet.withBuiltins {table : List Builtin} {r : Registry} (h : Quiet r) :
    Quiet (r.withBuiltins table) := by
  induction table generalizing r with
  | nil => exact h
  | cons b table ih =>
    rw [Registry.withBuiltins_cons]
    split
    · rename_i t hinsert
      rw [Registry.insert] at hinsert
      have hquiet := Registry.insertEntry_quiet (by exact h.bridge) hinsert
      refine ih ⟨hquiet.1, hquiet.2.trans h.notices, ?_⟩
      rw [(Registry.insertEntry_ok hinsert).2]
      exact h.ordered.insert _ _
    · exact h

theorem quiet_builtin : Quiet Registry.builtin :=
  Quiet.withBuiltins ⟨rfl, rfl, KeyMap.ordered_nil⟩

theorem find?_hearAll_publications {entries : KeyMap CommandEntry} (h : KeyMap.Ordered entries)
    (table : MethodTable) (key : String) :
    KeyMap.find? (table.hearAll (entries.map fun entry => Registry.publication entry.1 entry.2)) key =
      ((KeyMap.find? entries key).map MethodInfo.ofEntry).or (KeyMap.find? table key) := by
  induction entries generalizing table with
  | nil => rfl
  | cons first rest ih =>
    obtain ⟨hfirst, hrest⟩ := KeyMap.ordered_cons.1 h
    have hgone : KeyMap.find? rest first.1 = none := by
      refine Option.eq_none_iff_forall_ne_some.2 fun entry hentry => ?_
      exact String.lt_irrefl _ (hfirst (_, entry) (hrest.find?_eq_some_iff.1 hentry))
    rw [List.map_cons, MethodTable.hearAll, List.foldl_cons]
    refine (ih hrest _).trans ?_
    rw [KeyMap.find?_cons, Registry.publication, MethodTable.hear, KeyMap.find?_insert]
    split
    · rename_i heq
      subst heq
      simp [hgone, MethodInfo.ofEntry]
    · rfl

/-- A bridge that is attached hears of what is there already. -/
theorem Quiet.attach {r : Registry} (h : Quiet r) : Mirrors .empty (r.attach .everything) := by
  have hnotices : (r.attach .everything).notices =
      r.publicEntries.map fun entry => Registry.publication entry.1 entry.2 := by
    simp [Registry.attach, h.notices]
  have hpublic := h.ordered.filter fun entry => entry.2.isPublic
  refine ⟨rfl, h.ordered, MethodTable.ordered_hearAll KeyMap.ordered_nil _, fun key => ?_⟩
  rw [hnotices, Registry.publicEntries, find?_hearAll_publications hpublic, h.ordered.find?_filter]
  exact Option.or_none

/-! ## Runs of the reactor -/

namespace Reactor

/-- The methods of the reactor itself. -/
def systemMethods : List String :=
  ["system.listMethods", "system.methodSignature", "system.methodHelp"]

/-- The reactor after it has handled requests, one after the other. -/
def after (r : Reactor) (requests : List Request) : Reactor :=
  requests.foldl (fun r request => (r.handle request).2) r

/-- Between requests the table mirrors the registry, and there is nothing left to hear. -/
structure Settled (r : Reactor) : Prop where
  mirrors : Mirrors r.methods r.engine.commands
  taken : r.engine.commands.notices = []

theorem settled_listen {table : MethodTable} {e : Engine} (h : Mirrors table e.commands) :
    Settled (listen table e) :=
  ⟨h.listen, rfl⟩

theorem settled_start (session : Session) (disk : Disk) : Settled (start session disk) :=
  settled_listen quiet_builtin.attach

/-- The methods of the reactor itself change nothing. -/
theorem handle_system {r : Reactor} {request : Request} (h : request.method ∈ systemMethods) :
    (r.handle request).2 = r := by
  simp only [systemMethods, List.mem_cons, List.not_mem_nil, or_false] at h
  unfold Reactor.handle
  rcases h with h | h | h <;> rw [h] <;> rfl

/-- Every other method is called. -/
theorem handle_eq_call {r : Reactor} {request : Request} (h : request.method ∉ systemMethods) :
    r.handle request = r.call request := by
  simp only [systemMethods, List.mem_cons, List.not_mem_nil, or_false, not_or] at h
  obtain ⟨hlist, hsignature, hhelp⟩ := h
  rw [Reactor.handle, if_neg hlist, if_neg hsignature, if_neg hhelp]

theorem Settled.handle {r : Reactor} (h : Settled r) (request : Request) :
    Settled (r.handle request).2 := by
  by_cases hsystem : request.method ∈ systemMethods
  · rw [handle_system hsystem]
    exact h
  · rw [handle_eq_call hsystem, call]
    split
    · split
      · exact h
      · exact settled_listen (h.mirrors.run scriptLimit (.call _ _ _) hopLimit)
    · exact h

theorem Settled.after {r : Reactor} (h : Settled r) (requests : List Request) :
    Settled (r.after requests) := by
  induction requests generalizing r with
  | nil => exact h
  | cons request requests ih => exact ih (h.handle request)

theorem Settled.methods_eq {r : Reactor} (h : Settled r) : r.methods =
    r.engine.commands.publicEntries.map fun entry => (entry.1, MethodInfo.ofEntry entry.2) :=
  h.mirrors.eq_publicEntries h.taken

theorem Settled.keys_methods {r : Reactor} (h : Settled r) :
    KeyMap.keys r.methods = r.engine.commands.publicKeys := by
  rw [h.methods_eq, KeyMap.keys, List.map_map]
  rfl

theorem Settled.contains_iff {r : Reactor} (h : Settled r) {key : String} :
    KeyMap.contains r.methods key = true ↔ key ∈ r.engine.commands.publicKeys := by
  rw [KeyMap.contains_iff_find?, ← KeyMap.mem_keys, h.keys_methods]

theorem Settled.mem_publicKeys {r : Reactor} (h : Settled r) (key : String) :
    key ∈ r.engine.commands.publicKeys ↔
      ∃ entry, r.engine.commands.find? key = some entry ∧ entry.isPublic = true := by
  rw [Registry.mem_publicKeys_iff h.mirrors.ordered, Registry.methodInfo?, Option.isSome_map,
    Option.isSome_iff_exists]
  simp only [Option.filter_eq_some_iff]

theorem Settled.handle_unknown {r : Reactor} (h : Settled r) {request : Request}
    (hsystem : request.method ∉ systemMethods)
    (hhidden : request.method ∉ r.engine.commands.publicKeys) :
    r.handle request = (.error (.unknownMethod request.method), r) := by
  rw [handle_eq_call hsystem, call, if_neg (mt h.contains_iff.1 hhidden)]

/-- **After any requests the table is the list of the public entries.** So the method that lists the
methods answers the public keys in increasing order, and what is neither a method of the reactor nor
a public key is refused and changes nothing. -/
theorem methods_mirror_registry (session : Session) (disk : Disk) (requests : List Request) :
    let r := (start session disk).after requests
    r.methods = (r.engine.commands.publicEntries.map fun entry =>
        (entry.1, ⟨entry.2.signature, entry.2.help⟩)) ∧
      (∀ key, key ∈ r.engine.commands.publicKeys ↔
        ∃ entry, r.engine.commands.find? key = some entry ∧ entry.isPublic = true) ∧
      r.engine.commands.publicKeys.Pairwise (· < ·) ∧
      (∀ target params, r.handle ⟨"system.listMethods", target, params⟩ =
        (.ok (.list (r.engine.commands.publicKeys.map .text)), r)) ∧
      ∀ request : Request, request.method ∈ systemMethods ∨
        request.method ∈ r.engine.commands.publicKeys ∨
          r.handle request = (.error (.unknownMethod request.method), r) := by
  intro r
  have h : Settled r := (settled_start session disk).after requests
  refine ⟨h.methods_eq, h.mem_publicKeys, h.mirrors.ordered.filter _, fun target params => ?_,
    fun request => ?_⟩
  · rw [← h.keys_methods]
    rfl
  · by_cases hsystem : request.method ∈ systemMethods
    · exact .inl hsystem
    · by_cases hpublic : request.method ∈ r.engine.commands.publicKeys
      · exact .inr (.inl hpublic)
      · exact .inr (.inr (h.handle_unknown hsystem hpublic))

end Reactor

end Rpc

end TorrentControl
