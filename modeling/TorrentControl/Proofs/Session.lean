import Mathlib.Algebra.Group.Nat.Defs
import Mathlib.Data.List.Nodup
import TorrentControl.Session

/-! # Slots and handles

Each change of a session writes one slot, so what it does to the handles is read off the slot. The
free slots are vacant, so that a download is never put over another; and a slot counts the
generations of the handles that were issued for it, so that no handle is issued twice before the
generations wrap around. -/

namespace TorrentControl.Session

variable {s t : Session} {id other : DownloadId} {d : Download}

/-! ## Writing a slot -/

/-- The one session comes from the other by writing a slot. -/
def Writes (s t : Session) (index : UInt32) (slot : Slot) : Prop :=
  ∀ i, t.slots[i]? = if i = index.toNat then some slot else s.slots[i]?

theorem get?_eq_some_iff :
    s.get? id = some d ↔ s.slots[id.slot.toNat]? = some ⟨id.generation, some d⟩ := by
  cases h : s.slots[id.slot.toNat]? with
  | none => simp [get?, h]
  | some slot =>
    obtain ⟨generation, download⟩ := slot
    simp only [get?, h, Option.bind_eq_bind, Option.bind_some, Option.ite_none_right_eq_some,
      Option.some.injEq, Slot.mk.injEq]

theorem Writes.get? {index : UInt32} {slot : Slot} (h : s.Writes t index slot) (id : DownloadId) :
    t.get? id =
      if id.slot = index then if slot.generation = id.generation then slot.download else none
      else s.get? id := by
  rw [Session.get?, h, Session.get?]
  by_cases hindex : id.slot = index
  · simp [hindex]
  · have hne : id.slot.toNat ≠ index.toNat := fun heq => hindex (UInt32.toNat_inj.1 heq)
    simp [hindex, hne]

/-- A slot that holds a download answers to one handle. -/
theorem Writes.get?_hold (h : s.Writes t id.slot ⟨id.generation, some d⟩)
    (hs : ∀ other, other.slot = id.slot → other ≠ id → s.get? other = none) (other : DownloadId) :
    t.get? other = if other = id then some d else s.get? other := by
  rw [h.get?]
  by_cases heq : other = id
  · simp [heq]
  · by_cases hslot : other.slot = id.slot
    · have hne : id.generation ≠ other.generation := fun hgeneration =>
        heq (by cases other; cases id; simp_all)
      simp [heq, hslot, hne, hs other hslot heq]
    · simp [heq, hslot]

/-- A download is known by no other handle of its slot. -/
theorem get?_same_slot (h : s.get? id = some d) (hslot : other.slot = id.slot) (hne : other ≠ id) :
    s.get? other = none := by
  refine Option.eq_none_iff_forall_ne_some.2 fun found hfound => hne ?_
  rw [get?_eq_some_iff] at h hfound
  rw [hslot, h] at hfound
  cases other
  cases id
  simp_all

theorem get?_vacant {generation : UInt32} (h : s.slots[id.slot.toNat]? = some ⟨generation, none⟩) :
    s.get? id = none := by
  simp [Session.get?, h]

theorem get?_absent (h : s.slots[id.slot.toNat]? = none) : s.get? id = none := by
  simp [Session.get?, h]

/-! ## Coherence -/

/-- The free slots are vacant, and the order lists the handles of the downloads. -/
structure Coherent (s : Session) : Prop where
  vacant {index : UInt32} : index ∈ s.free →
    ∃ generation, s.slots[index.toNat]? = some ⟨generation, none⟩
  free_nodup : s.free.Nodup
  mem_order (id : DownloadId) : id ∈ s.order ↔ s.contains id = true
  order_nodup : s.order.Nodup

theorem coherent_empty : Coherent empty where
  vacant h := nomatch h
  free_nodup := List.nodup_nil
  mem_order id := by simp [empty, contains, Session.get?]
  order_nodup := List.nodup_nil

/-- A download comes into a slot that was not in use, under the generation of the slot. -/
structure Places (s t : Session) (id : DownloadId) (d : Download) : Prop where
  writes : s.Writes t id.slot ⟨id.generation, some d⟩
  unused : s.slots[id.slot.toNat]? = some ⟨id.generation, none⟩ ∨
    s.slots[id.slot.toNat]? = none ∧ id.generation = 0
  free : ∀ index ∈ t.free, index ∈ s.free ∧ index ≠ id.slot
  free_nodup : t.free.Nodup
  order : t.order = s.order ++ [id]
  length_le : t.slots.length ≤ s.slots.length + 1

/-- As long as there are more indices than slots, an insertion uses a slot that was not in use. -/
theorem Coherent.places (h : s.Coherent) (hroom : s.slots.length < 2 ^ 32) (d : Download) :
    s.Places (s.insert d).2 (s.insert d).1 d := by
  obtain ⟨slots, free, order⟩ := s
  cases free with
  | nil =>
    -- the index is the number of slots, which is not cut off yet
    have hindex : (UInt32.ofNat (min slots.length 4294967295)).toNat = slots.length := by
      rw [UInt32.toNat_ofNat_of_lt' (by simp only [UInt32.size]; omega)]
      simp only at hroom
      omega
    simp only [insert, append]
    refine ⟨fun i => ?_, .inr ⟨?_, rfl⟩, nofun, List.nodup_nil, rfl, by simp⟩
    · simp only [hindex, List.getElem?_append, List.getElem?_singleton]
      grind
    · simp [hindex]
  | cons index free =>
    obtain ⟨generation, hslot⟩ := h.vacant (.head _)
    obtain ⟨hnot, hnodup⟩ := List.nodup_cons.1 h.free_nodup
    have hlt : index.toNat < slots.length := (List.getElem?_eq_some_iff.1 hslot).1
    simp only at hslot
    simp only [insert, refill, hslot]
    refine ⟨fun i => ?_, .inl hslot, fun _ hfree => ⟨.tail _ hfree, ?_⟩, hnodup, rfl, by simp⟩
    · simp only [List.getElem?_set]
      grind
    · rintro rfl
      exact hnot hfree

theorem Places.get?_eq_none (h : s.Places t id d) (hslot : other.slot = id.slot) :
    s.get? other = none := by
  rcases h.unused with hvacant | ⟨habsent, -⟩
  · exact get?_vacant (hslot ▸ hvacant)
  · exact get?_absent (hslot ▸ habsent)

theorem Places.get? (h : s.Places t id d) (other : DownloadId) :
    t.get? other = if other = id then some d else s.get? other :=
  h.writes.get?_hold (fun _ hslot _ => h.get?_eq_none hslot) other

theorem Coherent.placed (h : s.Coherent) (hp : s.Places t id d) : t.Coherent where
  vacant hfree := by
    obtain ⟨hfree, hne⟩ := hp.free _ hfree
    obtain ⟨generation, hslot⟩ := h.vacant hfree
    refine ⟨generation, ?_⟩
    rw [hp.writes, if_neg (mt UInt32.toNat_inj.1 hne)]
    exact hslot
  free_nodup := hp.free_nodup
  mem_order other := by
    rw [hp.order, contains, hp.get?, List.mem_append, List.mem_singleton, h.mem_order, contains]
    split <;> simp [*]
  order_nodup := by
    have hnot : id ∉ s.order := by simp [h.mem_order, contains, hp.get?_eq_none rfl]
    rw [hp.order, List.nodup_append]
    exact ⟨h.order_nodup, List.nodup_singleton _, by grind⟩

/-! ## Removal -/

theorem remove_eq_none (h : s.get? id = none) : s.remove id = none := by
  simp [remove, h]

/-- A download leaves its slot, and the slot moves on to the next generation. -/
structure Vacates (s t : Session) (id : DownloadId) : Prop where
  writes : s.Writes t id.slot ⟨id.generation + 1, none⟩
  free : t.free = id.slot :: s.free
  order : t.order = s.order.filter (· != id)
  length_eq : t.slots.length = s.slots.length

theorem remove_eq_some (h : s.get? id = some d) :
    ∃ t, s.remove id = some (d, t) ∧ s.Vacates t id := by
  have hlt := (List.getElem?_eq_some_iff.1 (get?_eq_some_iff.1 h)).1
  refine ⟨_, by simp only [remove, h]; rfl, fun i => ?_, rfl, rfl, List.length_set⟩
  simp only [List.getElem?_set]
  grind

theorem vacates_of_remove (h : s.remove id = some (d, t)) : s.get? id = some d ∧ s.Vacates t id := by
  cases hfound : s.get? id with
  | none => cases (remove_eq_none hfound).symm.trans h
  | some found =>
    obtain ⟨_, hsome, hvacates⟩ := remove_eq_some hfound
    cases hsome.symm.trans h
    exact ⟨rfl, hvacates⟩

theorem Vacates.get? (h : s.Vacates t id) (hs : s.get? id = some d) (other : DownloadId) :
    t.get? other = if other = id then none else s.get? other := by
  rw [h.writes.get?]
  by_cases heq : other = id
  · simp [heq]
  · by_cases hslot : other.slot = id.slot
    · simp [heq, hslot, get?_same_slot hs hslot heq]
    · simp [heq, hslot]

theorem Coherent.vacated (h : s.Coherent) (hv : s.Vacates t id) (hs : s.get? id = some d) :
    t.Coherent where
  vacant {index} hfree := by
    rw [hv.writes]
    split
    · exact ⟨_, rfl⟩
    · rename_i hne
      rw [hv.free] at hfree
      rcases List.mem_cons.1 hfree with rfl | hfree
      · exact (hne rfl).elim
      · exact h.vacant hfree
  free_nodup := by
    rw [hv.free]
    refine List.nodup_cons.2 ⟨fun hfree => ?_, h.free_nodup⟩
    obtain ⟨generation, hslot⟩ := h.vacant hfree
    exact nomatch hs.symm.trans (get?_vacant hslot)
  mem_order other := by
    rw [hv.order, contains, hv.get? hs, List.mem_filter, h.mem_order, contains]
    split <;> simp [*]
  order_nodup := by
    rw [hv.order]
    exact h.order_nodup.filter _

/-! ## Replacement -/

/-- A slot gets another download under the same handle. -/
structure Replaces (s t : Session) (id : DownloadId) (d : Download) : Prop where
  writes : s.Writes t id.slot ⟨id.generation, some d⟩
  free : t.free = s.free
  order : t.order = s.order
  length_eq : t.slots.length = s.slots.length

theorem replaces {old : Download} (h : s.get? id = some old) (d : Download) :
    s.Replaces (s.replace id d) id d := by
  have hlt := (List.getElem?_eq_some_iff.1 (get?_eq_some_iff.1 h)).1
  simp only [replace, contains, h, Option.isSome_some, if_true]
  refine ⟨fun i => ?_, rfl, rfl, List.length_set⟩
  simp only [List.getElem?_set]
  grind

theorem replace_self (h : s.get? id = some d) : s.replace id d = s := by
  obtain ⟨hlt, hslot⟩ := List.getElem?_eq_some_iff.1 (get?_eq_some_iff.1 h)
  simp only [replace, contains, h, Option.isSome_some, if_true, ← hslot, List.set_getElem_self]

theorem Replaces.get? {old : Download} (h : s.Replaces t id d) (hs : s.get? id = some old)
    (other : DownloadId) : t.get? other = if other = id then some d else s.get? other :=
  h.writes.get?_hold (fun _ hslot hne => get?_same_slot hs hslot hne) other

theorem Coherent.replaced {old : Download} (h : s.Coherent) (hr : s.Replaces t id d)
    (hs : s.get? id = some old) : t.Coherent where
  vacant {index} hfree := by
    rw [hr.free] at hfree
    obtain ⟨generation, hslot⟩ := h.vacant hfree
    have hne : index.toNat ≠ id.slot.toNat := fun heq =>
      nomatch hs.symm.trans (get?_vacant (heq ▸ hslot))
    exact ⟨generation, by rw [hr.writes, if_neg hne, hslot]⟩
  free_nodup := hr.free ▸ h.free_nodup
  mem_order other := by
    rw [hr.order, contains, hr.get? hs, h.mem_order, contains]
    split <;> simp [*]
  order_nodup := hr.order ▸ h.order_nodup

/-! ## What is retained -/

section Retains

variable {γ : Type} {g : Download → γ}

/-- The second session has downloads of the first one only, and what is read off them is the same. -/
def Retains (g : Download → γ) (s t : Session) : Prop :=
  ∀ id d, t.get? id = some d → ∃ old, s.get? id = some old ∧ g d = g old

theorem retains_self (s : Session) : s.Retains g s :=
  fun _ d hd => ⟨d, hd, rfl⟩

theorem Retains.trans {u : Session} (h : s.Retains g t) (hu : t.Retains g u) : s.Retains g u := by
  intro other d hd
  obtain ⟨old, hold, hsame⟩ := hu other d hd
  obtain ⟨first, hfirst, hsame'⟩ := h other old hold
  exact ⟨first, hfirst, hsame.trans hsame'⟩

theorem Vacates.retains (h : s.Vacates t id) (hs : s.get? id = some d) : s.Retains g t := by
  intro other c hc
  rw [h.get? hs] at hc
  split at hc
  · cases hc
  · exact ⟨c, hc, rfl⟩

theorem Replaces.retains {old : Download} (h : s.Replaces t id d) (hs : s.get? id = some old)
    (hsame : g d = g old) : s.Retains g t := by
  intro other c hc
  rw [h.get? hs] at hc
  split at hc
  · rename_i heq
    cases hc
    exact ⟨old, heq ▸ hs, hsame⟩
  · exact ⟨c, hc, rfl⟩

end Retains

/-! ## The downloads in order -/

theorem lookup_filterMap {α β : Type} [BEq α] [LawfulBEq α] (keys : List α) (f : α → Option β)
    (key : α) : (keys.filterMap fun k => (f k).map fun value => (k, value)).lookup key =
      if keys.contains key then f key else none := by
  induction keys with
  | nil => rfl
  | cons first rest ih =>
    rw [List.filterMap_cons, List.contains_cons]
    by_cases heq : key = first
    · subst heq
      cases hf : f key with
      | none => simp [ih, hf]
      | some value => simp
    · have hbeq : (key == first) = false := beq_false_of_ne heq
      cases hf : f first with
      | none => simp [ih, hbeq]
      | some value => simp [ih, List.lookup_cons, hbeq]

/-- A handle is looked up in the list of the downloads. -/
theorem Coherent.get?_eq_lookup (h : s.Coherent) (id : DownloadId) :
    s.get? id = s.toList.lookup id := by
  rw [toList, lookup_filterMap]
  split
  · rfl
  · rename_i hcontains
    have hnot : id ∉ s.order := by simpa using hcontains
    simpa [h.mem_order, contains] using hnot

theorem Coherent.ids_eq (h : s.Coherent) : s.ids = s.toList.map Prod.fst := by
  have hsome :
      s.order.filterMap (fun id => (s.get? id).map fun _ => id) = s.order.filterMap some := by
    refine List.filterMap_congr fun id hid => ?_
    obtain ⟨d, hd⟩ := Option.isSome_iff_exists.1 ((h.mem_order id).1 hid)
    rw [hd]
    rfl
  rw [toList, List.map_filterMap, ids]
  simpa [Function.comp_def] using hsome.symm

/-- A new download comes last. -/
theorem Places.toList (h : s.Places t id d) (hs : s.Coherent) :
    t.toList = s.toList ++ [(id, d)] := by
  have hsame :
      s.order.filterMap (fun other => (t.get? other).map fun d => (other, d)) = s.toList := by
    refine List.filterMap_congr fun other hother => ?_
    have hne : other ≠ id := fun heq => by
      rw [hs.mem_order, contains, h.get?_eq_none (heq ▸ rfl)] at hother
      exact nomatch hother
    rw [h.get?, if_neg hne]
  rw [Session.toList, h.order, List.filterMap_append, hsame]
  simp [h.get?]

/-- A removed download is left out. -/
theorem Vacates.toList (h : s.Vacates t id) (hs : s.get? id = some d) :
    t.toList = s.toList.filter fun entry => entry.1 != id := by
  rw [Session.toList, Session.toList, h.order, List.filterMap_filter, List.filter_filterMap]
  refine List.filterMap_congr fun other _ => ?_
  by_cases heq : other = id
  · simp [heq, Option.filter_map, Function.comp_def]
  · have hne : (other != id) = true := bne_iff_ne.2 heq
    cases hfound : s.get? other <;> simp [h.get? hs, heq, hne, hfound, Option.filter_some]

/-- A replaced download keeps its place. -/
theorem Replaces.toList {old : Download} {f : Download → Download} (h : s.Replaces t id (f old))
    (hs : s.get? id = some old) :
    t.toList = s.toList.map fun entry => if entry.1 = id then (id, f entry.2) else entry := by
  rw [Session.toList, Session.toList, h.order, List.map_filterMap]
  refine List.filterMap_congr fun other _ => ?_
  rw [h.get? hs]
  by_cases heq : other = id
  · simp [heq, hs]
  · simp [heq, Function.comp_def]

/-! ## Generations -/

/-- How many handles were issued for a slot. -/
def uses (issued : List DownloadId) (index : UInt32) : Nat :=
  issued.countP fun id => id.slot == index

theorem uses_concat (issued : List DownloadId) (id : DownloadId) (index : UInt32) :
    uses (issued ++ [id]) index = uses issued index + if id.slot = index then 1 else 0 := by
  simp [uses, List.countP_append, List.countP_singleton]

/-- The handles of a slot count its generations, and the slot holds the last one or waits for the
next. -/
structure Numbered (s : Session) (issued : List DownloadId) : Prop where
  length_le : s.slots.length ≤ issued.length
  absent {index : UInt32} : s.slots[index.toNat]? = none → uses issued index = 0
  present {index : UInt32} {slot : Slot} : s.slots[index.toNat]? = some slot → ∃ k,
    slot.generation = UInt32.ofNat k ∧ uses issued index = k + slot.download.isSome.toNat
  earlier {id : DownloadId} : id ∈ issued →
    ∃ k < uses issued id.slot, id.generation = UInt32.ofNat k

theorem numbered_empty : empty.Numbered [] where
  length_le := Nat.le_refl 0
  absent _ := rfl
  present h := by simp [empty] at h
  earlier h := nomatch h

variable {issued : List DownloadId}

/-- A new handle has the number of handles that its slot had before. -/
theorem Numbered.next (h : s.Numbered issued) (hp : s.Places t id d) :
    id.generation = UInt32.ofNat (uses issued id.slot) := by
  rcases hp.unused with hvacant | ⟨habsent, hzero⟩
  · obtain ⟨k, hk, huses⟩ := h.present hvacant
    rw [huses]
    exact hk
  · rw [h.absent habsent, hzero]
    rfl

/-- **As long as fewer handles were issued than there are generations, a new handle is fresh.** -/
theorem Numbered.fresh (h : s.Numbered issued) (hp : s.Places t id d)
    (hlt : issued.length < 2 ^ 32) : id ∉ issued := by
  intro hissued
  obtain ⟨k, hk, hgeneration⟩ := h.earlier hissued
  -- the earlier handle has a smaller number, and numbers below the limit are generations
  have hle : uses issued id.slot ≤ issued.length := List.countP_le_length
  have heq : UInt32.ofNat k = UInt32.ofNat (uses issued id.slot) :=
    hgeneration.symm.trans (h.next hp)
  rw [← UInt32.toNat_inj, UInt32.toNat_ofNat_of_lt' (Nat.lt_trans hk (Nat.lt_of_le_of_lt hle hlt)),
    UInt32.toNat_ofNat_of_lt' (Nat.lt_of_le_of_lt hle hlt)] at heq
  omega

theorem Numbered.placed (h : s.Numbered issued) (hp : s.Places t id d) :
    t.Numbered (issued ++ [id]) where
  length_le := by
    have := h.length_le
    have := hp.length_le
    simp only [List.length_append, List.length_singleton]
    omega
  absent {index} hindex := by
    rw [hp.writes] at hindex
    split at hindex
    · cases hindex
    · rename_i hne
      rw [uses_concat, h.absent hindex, if_neg fun heq : id.slot = index => hne (by rw [heq])]
  present {index slot} hslot := by
    rw [hp.writes] at hslot
    split at hslot
    · rename_i heq
      cases UInt32.toNat_inj.1 heq
      cases hslot
      exact ⟨_, h.next hp, by simp [uses_concat]⟩
    · rename_i hne
      rw [uses_concat, if_neg fun heq : id.slot = index => hne (by rw [heq])]
      exact h.present hslot
  earlier {other} hother := by
    rw [uses_concat]
    rcases List.mem_append.1 hother with hother | hother
    · obtain ⟨k, hk, hgeneration⟩ := h.earlier hother
      exact ⟨k, by omega, hgeneration⟩
    · cases List.mem_singleton.1 hother
      exact ⟨_, by simp, h.next hp⟩

/-- A slot may be written without issuing a handle if it still counts its handles. -/
theorem Numbered.written {index : UInt32} {slot : Slot} (h : s.Numbered issued)
    (hw : s.Writes t index slot) (hlength : t.slots.length = s.slots.length)
    (hslot : ∃ k, slot.generation = UInt32.ofNat k ∧
      uses issued index = k + slot.download.isSome.toNat) : t.Numbered issued where
  length_le := hlength ▸ h.length_le
  absent {other} hother := by
    rw [hw] at hother
    split at hother
    · cases hother
    · exact h.absent hother
  present {other found} hfound := by
    rw [hw] at hfound
    split at hfound
    · rename_i heq
      cases UInt32.toNat_inj.1 heq
      cases hfound
      exact hslot
    · exact h.present hfound
  earlier := h.earlier

theorem Numbered.vacated (h : s.Numbered issued) (hv : s.Vacates t id) (hs : s.get? id = some d) :
    t.Numbered issued := by
  obtain ⟨k, hk, huses⟩ := h.present (get?_eq_some_iff.1 hs)
  refine h.written hv.writes hv.length_eq ⟨k + 1, ?_, huses⟩
  rw [UInt32.ofNat_add, ← hk]
  rfl

theorem Numbered.replaced {old : Download} (h : s.Numbered issued) (hr : s.Replaces t id d)
    (hs : s.get? id = some old) : t.Numbered issued := by
  obtain ⟨k, hk, huses⟩ := h.present (get?_eq_some_iff.1 hs)
  exact h.written hr.writes hr.length_eq ⟨k, hk, huses⟩

end TorrentControl.Session
