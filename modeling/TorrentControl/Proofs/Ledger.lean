import Mathlib.Data.List.Induction
import TorrentControl.Proofs.Session

/-! # Sessions are ordered maps

A ledger is the list of the downloads in the order of their insertion, each under its handle. What a
session answers to its changes is written into a history, and the ledger of the history is kept up
without slots and generations. Until the handles run out, the session is the ledger: it answers as
the ledger does, and no handle is issued twice. -/

namespace TorrentControl

abbrev Ledger := List (DownloadId × Download)

namespace Session

/-- What a client changes. -/
inductive Change where
  | insert (d : Download)
  | remove (id : DownloadId)
  /-- Changes the download of a handle in its place. -/
  | modify (id : DownloadId) (f : Download → Download)

/-- A change together with the answer to it. -/
inductive Event where
  | inserted (d : Download) (id : DownloadId)
  | removed (id : DownloadId) (found : Option Download)
  | modified (id : DownloadId) (f : Download → Download) (found : Option Download)

def Change.isInsert : Change → Bool
  | .insert _ => true
  | _ => false

def perform (s : Session) : Change → Event × Session
  | .insert d => (.inserted d (s.insert d).1, (s.insert d).2)
  | .remove id =>
    match s.remove id with
    | some (d, t) => (.removed id (some d), t)
    | none => (.removed id none, s)
  | .modify id f =>
    match s.get? id with
    | some d => (.modified id f (some d), s.replace id (f d))
    | none => (.modified id f none, s)

/-- The history of a run from the empty session, and the session at its end. -/
def run (changes : List Change) : List Event × Session :=
  changes.foldl (fun past change =>
    (past.1 ++ [(past.2.perform change).1], (past.2.perform change).2)) ([], empty)

/-! ## The ledger of a history -/

/-- The handle that an event issues. -/
def Event.issues? : Event → Option DownloadId
  | .inserted _ id => some id
  | _ => none

/-- The handle that an event takes back. -/
def Event.withdraws? : Event → Option DownloadId
  | .removed id (some _) => some id
  | _ => none

def issued (history : List Event) : List DownloadId :=
  history.filterMap Event.issues?

def withdrawn (history : List Event) : List DownloadId :=
  history.filterMap Event.withdraws?

end Session

namespace Ledger

open Session (Event)

def apply (l : Ledger) : Event → Ledger
  | .inserted d id => l ++ [(id, d)]
  | .removed id _ => l.filter fun entry => entry.1 != id
  | .modified id f _ => l.map fun entry => if entry.1 = id then (id, f entry.2) else entry

def ofHistory (history : List Event) : Ledger :=
  history.foldl apply []

/-- Whether an event has the answer that the ledger gives. -/
def Answers (l : Ledger) : Event → Prop
  | .inserted _ _ => True
  | .removed id found => found = l.lookup id
  | .modified id _ found => found = l.lookup id

end Ledger

namespace Session

/-- After the history, the session is the map that the ledger of the history is, and no handle was
issued twice. -/
structure Refines (history : List Event) (s : Session) : Prop where
  issued_nodup : (issued history).Nodup
  answers (before after : List Event) (event : Event) : history = before ++ event :: after →
    (Ledger.ofHistory before).Answers event
  contains_iff (id : DownloadId) :
    s.contains id = true ↔ id ∈ issued history ∧ id ∉ withdrawn history
  get?_eq (id : DownloadId) : s.get? id = (Ledger.ofHistory history).lookup id
  download_eq (id : DownloadId) : s.download id =
    ((Ledger.ofHistory history).lookup id).elim (.error (.stale (.download id))) .ok
  toList_eq : s.toList = Ledger.ofHistory history
  ids_eq : s.ids = (issued history).filter (· ∉ withdrawn history)
  ids_nodup : s.ids.Nodup
  keys_eq : (Ledger.ofHistory history).map Prod.fst = s.ids
  size_eq : s.size = (Ledger.ofHistory history).length
  remove_stale (id : DownloadId) : s.contains id = false →
    s.remove id = none ∧ s.perform (.remove id) = (.removed id none, s)
  /-- Nothing that belonged to a removed download is found. -/
  part_stale (id : DownloadId) (index : Nat) : id ∈ withdrawn history →
    s.file ⟨id, index⟩ = .error (.stale (.download id)) ∧
    s.peer ⟨id, index⟩ = .error (.stale (.download id)) ∧
    s.tracker ⟨id, index⟩ = .error (.stale (.download id))

/-! ## Histories that grow -/

section Growth

variable (history : List Event) (event : Event)

theorem run_concat (changes : List Change) (change : Change) :
    run (changes ++ [change]) = ((run changes).1 ++ [((run changes).2.perform change).1],
      ((run changes).2.perform change).2) := by
  simp only [run, List.foldl_append, List.foldl_cons, List.foldl_nil]

theorem issued_concat : issued (history ++ [event]) = issued history ++ event.issues?.toList := by
  rw [issued, List.filterMap_append]
  cases h : event.issues? <;> simp [issued, h]

theorem withdrawn_concat :
    withdrawn (history ++ [event]) = withdrawn history ++ event.withdraws?.toList := by
  rw [withdrawn, List.filterMap_append]
  cases h : event.withdraws? <;> simp [withdrawn, h]

theorem ofHistory_concat :
    Ledger.ofHistory (history ++ [event]) = (Ledger.ofHistory history).apply event := by
  simp only [Ledger.ofHistory, List.foldl_append, List.foldl_cons, List.foldl_nil]

end Growth

/-! ## One change -/

/-- What a run keeps as long as handles are left. -/
structure Kept (history : List Event) (s : Session) : Prop where
  coherent : s.Coherent
  numbered : s.Numbered (issued history)
  issued_nodup : (issued history).Nodup
  withdrawn_subset : withdrawn history ⊆ issued history
  answers (before after : List Event) (event : Event) : history = before ++ event :: after →
    (Ledger.ofHistory before).Answers event
  toList_eq : s.toList = Ledger.ofHistory history
  ids_eq : s.ids = (issued history).filter (· ∉ withdrawn history)

theorem kept_empty : Kept [] empty where
  coherent := coherent_empty
  numbered := numbered_empty
  issued_nodup := List.nodup_nil
  withdrawn_subset := List.nil_subset _
  answers before after event h := by simp at h
  toList_eq := rfl
  ids_eq := rfl

namespace Kept

variable {history : List Event} {s t : Session} {id : DownloadId} {d : Download}
  {f : Download → Download}

theorem get?_eq (h : Kept history s) (id : DownloadId) :
    s.get? id = (Ledger.ofHistory history).lookup id := by
  rw [h.coherent.get?_eq_lookup, h.toList_eq]

theorem mem_ids (h : Kept history s) (id : DownloadId) : id ∈ s.ids ↔ s.contains id = true :=
  h.coherent.mem_order id

/-- An event is kept if it issues a fresh handle at most, withdraws one that was issued, and answers
and changes the downloads as it does in the ledger. -/
theorem concat (h : Kept history s) {event : Event} (hcoherent : t.Coherent)
    (hnumbered : t.Numbered (issued history ++ event.issues?.toList))
    (hfresh : ∀ id ∈ event.issues?, id ∉ issued history)
    (hissued : ∀ id ∈ event.withdraws?, id ∈ issued history)
    (hanswer : (Ledger.ofHistory history).Answers event)
    (hlist : t.toList = (Ledger.ofHistory history).apply event)
    (hids : t.ids = (issued history ++ event.issues?.toList).filter
      (· ∉ withdrawn history ++ event.withdraws?.toList)) :
    Kept (history ++ [event]) t where
  coherent := hcoherent
  numbered := by rwa [issued_concat]
  issued_nodup := by
    rw [issued_concat]
    cases hissue : event.issues? with
    | none => simpa using h.issued_nodup
    | some id =>
      have hnot := hfresh id hissue
      exact List.nodup_append.2 ⟨h.issued_nodup, List.nodup_singleton _, by grind⟩
  withdrawn_subset := by
    rw [issued_concat, withdrawn_concat]
    refine List.append_subset.2 ⟨List.subset_append_of_subset_left _ h.withdrawn_subset, ?_⟩
    intro id hid
    exact List.mem_append_left _ (hissued id (by simpa using hid))
  answers before after other heq := by
    rcases List.eq_nil_or_concat' after with rfl | ⟨rest, last, rfl⟩
    · obtain ⟨rfl, hlast⟩ := List.append_inj' heq rfl
      cases hlast
      exact hanswer
    · rw [← List.cons_append, ← List.append_assoc] at heq
      exact h.answers before rest other (List.append_inj' heq rfl).1
  toList_eq := by rw [hlist, ofHistory_concat]
  ids_eq := by simpa only [issued_concat, withdrawn_concat] using hids

/-- A new handle is fresh, and its download comes last. -/
theorem inserted (h : Kept history s) (hp : s.Places t id d)
    (hlt : (issued history).length < 2 ^ 32) : Kept (history ++ [.inserted d id]) t := by
  have hfresh := h.numbered.fresh hp hlt
  refine h.concat (h.coherent.placed hp) (h.numbered.placed hp) ?_ ?_ trivial ?_ ?_
  · rintro _ ⟨⟩
    exact hfresh
  · rintro _ ⟨⟩
  · rw [hp.toList h.coherent, h.toList_eq, Ledger.apply]
  · have hkept : id ∉ withdrawn history := fun hmem => hfresh (h.withdrawn_subset hmem)
    rw [ids, hp.order, ← ids, h.ids_eq]
    simp [Event.issues?, Event.withdraws?, hkept]

/-- A removed download leaves the ledger, and its handle is withdrawn. -/
theorem removed (h : Kept history s) (hv : s.Vacates t id) (hs : s.get? id = some d) :
    Kept (history ++ [.removed id (some d)]) t := by
  have hlive : id ∈ s.ids := (h.mem_ids id).2 (by rw [contains, hs]; rfl)
  rw [h.ids_eq, List.mem_filter] at hlive
  refine h.concat (h.coherent.vacated hv hs) ?_ ?_ ?_ (hs.symm.trans (h.get?_eq id)) ?_ ?_
  · simpa [Event.issues?] using h.numbered.vacated hv hs
  · rintro _ ⟨⟩
  · rintro _ ⟨⟩
    exact hlive.1
  · rw [hv.toList hs, h.toList_eq, Ledger.apply]
  · rw [ids, hv.order, ← ids, h.ids_eq, List.filter_filter]
    simp only [Event.issues?, Event.withdraws?, Option.toList, List.append_nil]
    refine List.filter_congr fun other _ => ?_
    rw [Bool.eq_iff_iff]
    simp [and_comm]

/-- A changed download keeps its place. -/
theorem modified (h : Kept history s) (hr : s.Replaces t id (f d)) (hs : s.get? id = some d) :
    Kept (history ++ [.modified id f (some d)]) t := by
  refine h.concat (h.coherent.replaced hr hs) ?_ ?_ ?_ (hs.symm.trans (h.get?_eq id)) ?_ ?_
  · simpa [Event.issues?] using h.numbered.replaced hr hs
  · rintro _ ⟨⟩
  · rintro _ ⟨⟩
  · rw [hr.toList hs, h.toList_eq, Ledger.apply]
  · rw [ids, hr.order, ← ids, h.ids_eq]
    simp [Event.issues?, Event.withdraws?]

/-- The ledger has nothing under a stale handle. -/
theorem ne_of_stale (h : Kept history s) (hs : s.get? id = none) {entry : DownloadId × Download}
    (hentry : entry ∈ Ledger.ofHistory history) : entry.1 ≠ id := by
  rintro rfl
  rw [h.get?_eq, List.lookup_eq_none_iff] at hs
  simpa using hs entry hentry

theorem remove_missed (h : Kept history s) (hs : s.get? id = none) :
    Kept (history ++ [.removed id none]) s := by
  refine h.concat h.coherent ?_ ?_ ?_ (hs.symm.trans (h.get?_eq id)) ?_ ?_
  · simpa [Event.issues?] using h.numbered
  · rintro _ ⟨⟩
  · rintro _ ⟨⟩
  · rw [h.toList_eq, Ledger.apply]
    exact (List.filter_eq_self.2 fun entry hentry => bne_iff_ne.2 (h.ne_of_stale hs hentry)).symm
  · simpa [Event.issues?, Event.withdraws?] using h.ids_eq

theorem modify_missed (h : Kept history s) (hs : s.get? id = none) :
    Kept (history ++ [.modified id f none]) s := by
  refine h.concat h.coherent ?_ ?_ ?_ (hs.symm.trans (h.get?_eq id)) ?_ ?_
  · simpa [Event.issues?] using h.numbered
  · rintro _ ⟨⟩
  · rintro _ ⟨⟩
  · rw [h.toList_eq, Ledger.apply]
    conv_lhs => rw [← List.map_id (Ledger.ofHistory history)]
    exact List.map_congr_left fun entry hentry => (if_neg (h.ne_of_stale hs hentry)).symm
  · simpa [Event.issues?, Event.withdraws?] using h.ids_eq

end Kept

theorem Kept.perform {history : List Event} {s : Session} (h : Kept history s) (change : Change)
    (hroom : change.isInsert = true → (issued history).length < 2 ^ 32) :
    Kept (history ++ [(s.perform change).1]) (s.perform change).2 := by
  cases change with
  | insert d =>
    -- each slot was made for a handle, so there is room for one more slot as well
    have hlt := hroom rfl
    exact h.inserted (h.coherent.places (Nat.lt_of_le_of_lt h.numbered.length_le hlt) d) hlt
  | remove id =>
    cases hs : s.get? id with
    | none =>
      simp only [Session.perform, remove_eq_none hs]
      exact h.remove_missed hs
    | some d =>
      obtain ⟨t, ht, hv⟩ := remove_eq_some hs
      simp only [Session.perform, ht]
      exact h.removed hv hs
  | modify id f =>
    cases hs : s.get? id with
    | none =>
      simp only [Session.perform, hs]
      exact h.modify_missed hs
    | some d =>
      simp only [Session.perform, hs]
      exact h.modified (replaces hs (f d)) hs

/-! ## Whole runs -/

theorem length_issued_perform (s : Session) (change : Change) :
    (s.perform change).1.issues?.toList.length = if change.isInsert then 1 else 0 := by
  cases change with
  | insert d => rfl
  | remove id => cases hs : s.remove id <;> simp [perform, hs, Event.issues?, Change.isInsert]
  | modify id f => cases hs : s.get? id <;> simp [perform, hs, Event.issues?, Change.isInsert]

/-- A run issues a handle for each insertion. -/
theorem length_issued_run (changes : List Change) :
    (issued (run changes).1).length = changes.countP Change.isInsert := by
  induction changes using List.reverseRecOn with
  | nil => rfl
  | append_singleton changes change ih =>
    rw [run_concat, issued_concat, List.length_append, ih, length_issued_perform,
      List.countP_append, List.countP_singleton]

theorem kept_run (changes : List Change) (h : changes.countP Change.isInsert ≤ 2 ^ 32) :
    Kept (run changes).1 (run changes).2 := by
  induction changes using List.reverseRecOn with
  | nil => exact kept_empty
  | append_singleton changes change ih =>
    rw [List.countP_append, List.countP_singleton] at h
    rw [run_concat]
    refine (ih (by omega)).perform change fun hinsert => ?_
    rw [length_issued_run]
    simp only [hinsert, if_true] at h
    omega

theorem download_eq (s : Session) (id : DownloadId) :
    s.download id = (s.get? id).elim (.error (.stale (.download id))) .ok := by
  rw [download]
  cases s.get? id <;> rfl

theorem download_stale {s : Session} {id : DownloadId} (h : s.get? id = none) :
    s.download id = .error (.stale (.download id)) := by
  rw [download_eq, h]
  rfl

/-- **A session is an ordered map whose keys are never reused**, as long as at most as many downloads
are inserted as a slot has generations. -/
theorem run_refines_ledger (changes : List Change) (h : changes.countP Change.isInsert ≤ 2 ^ 32) :
    Refines (run changes).1 (run changes).2 := by
  have hkept := kept_run changes h
  have hcontains (id : DownloadId) : (run changes).2.contains id = true ↔
      id ∈ issued (run changes).1 ∧ id ∉ withdrawn (run changes).1 := by
    rw [← hkept.mem_ids, hkept.ids_eq, List.mem_filter, decide_eq_true_iff]
  have hstale (id : DownloadId) (hid : (run changes).2.contains id = false) :
      (run changes).2.get? id = none := by
    simpa [contains] using hid
  have hkeys := hkept.coherent.ids_eq
  rw [hkept.toList_eq] at hkeys
  refine ⟨hkept.issued_nodup, hkept.answers, hcontains, hkept.get?_eq, fun id => ?_,
    hkept.toList_eq, hkept.ids_eq, hkept.coherent.order_nodup, hkeys.symm, ?_, fun id hid => ?_,
    fun id index hid => ?_⟩
  · rw [download_eq, hkept.get?_eq]
  · rw [← List.length_map, ← hkeys, size, ids]
  · have hnone := remove_eq_none (hstale id hid)
    exact ⟨hnone, by simp only [perform, hnone]⟩
  · have hgone : (run changes).2.contains id = false :=
      Bool.eq_false_iff.2 fun hlive => ((hcontains id).1 hlive).2 hid
    have hdownload := download_stale (hstale id hgone)
    simp only [file, peer, tracker, hdownload]
    exact ⟨rfl, rfl, rfl⟩

/-- A slot that is used again, and a download that is changed in its place. -/
def reuse : List Change :=
  [.insert (.fresh "first" .zero), .remove ⟨0, 0⟩, .insert (.fresh "second" (.fill 1)),
    .modify ⟨0, 1⟩ (fun d => { d with priority := 3 }), .remove ⟨0, 0⟩]

theorem reuse_refines_ledger : reuse.countP Change.isInsert ≤ 2 ^ 32 ∧
    Refines (run reuse).1 (run reuse).2 ∧ (run reuse).2.ids = [⟨0, 1⟩] :=
  ⟨by decide, run_refines_ledger reuse (by decide), rfl⟩

/-! ## When the handles run out -/

/-- One slot is cleared and filled again and again. -/
def turns (d : Download) : Nat → List Change
  | 0 => [.insert d]
  | n + 1 => turns d n ++ [.remove ⟨0, UInt32.ofNat n⟩] ++ [.insert d]

theorem countP_turns (d : Download) (n : Nat) : (turns d n).countP Change.isInsert = n + 1 := by
  induction n with
  | zero => rfl
  | succ n ih => simp [turns, ih, Change.isInsert]

theorem perform_remove_only (d : Download) (generation : UInt32) :
    (Session.mk [⟨generation, some d⟩] [] [⟨0, generation⟩]).perform (.remove ⟨0, generation⟩) =
      (.removed ⟨0, generation⟩ (some d), ⟨[⟨generation + 1, none⟩], [0], []⟩) := by
  simp [perform, remove, Session.get?]

/-- Each turn issues the next generation of the slot. -/
theorem run_turns (d : Download) (n : Nat) :
    (run (turns d n)).2 = ⟨[⟨UInt32.ofNat n, some d⟩], [], [⟨0, UInt32.ofNat n⟩]⟩ ∧
      issued (run (turns d n)).1 = (List.range (n + 1)).map fun k => ⟨0, UInt32.ofNat k⟩ := by
  induction n with
  | zero => exact ⟨rfl, rfl⟩
  | succ n ih =>
    obtain ⟨hsession, hissued⟩ := ih
    rw [turns, run_concat, run_concat, hsession, perform_remove_only, UInt32.ofNat_add]
    refine ⟨rfl, ?_⟩
    rw [issued_concat, issued_concat, hissued, List.range_succ (n := n + 1), List.map_append]
    simp [perform, insert, refill, Event.issues?]

/-- **The bound is exact**: one insertion more may issue a handle for the second time. -/
theorem turns_reissue (d : Download) : (turns d (2 ^ 32)).countP Change.isInsert = 2 ^ 32 + 1 ∧
    ¬ (issued (run (turns d (2 ^ 32))).1).Nodup := by
  refine ⟨countP_turns d _, fun h => ?_⟩
  rw [(run_turns d _).2] at h
  have heq := List.inj_on_of_nodup_map h (List.mem_range.2 (by omega : 0 < 2 ^ 32 + 1))
    (List.mem_range.2 (by omega : 2 ^ 32 < 2 ^ 32 + 1)) (congrArg (DownloadId.mk 0) (by decide))
  omega

end Session

end TorrentControl
