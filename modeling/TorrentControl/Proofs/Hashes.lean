import TorrentControl.Proofs.Session
import TorrentControl.Proofs.Sparing
import TorrentControl.Proofs.Text.Hex

/-! # Downloads keep their hashes apart

A manifest builds no two downloads with one hash, and no command adds a download or writes a hash. So
from a session on, the downloads that remain are those of the session under the handles and hashes
that they have there, and the search for a hash has at most one download to find. -/

namespace TorrentControl

namespace Session

variable {s t : Session} {id : DownloadId} {d : Download}

/-! ## The search -/

/-- The order lists the handles of the downloads, and no two of them have the same hash. -/
structure Keyed (s : Session) : Prop where
  mem_order (id : DownloadId) : id ∈ s.order ↔ s.contains id = true
  apart {id other : DownloadId} {d c : Download} : s.get? id = some d → s.get? other = some c →
    d.infoHash = c.infoHash → id = other

theorem Keyed.mem_toList (h : s.Keyed) : (id, d) ∈ s.toList ↔ s.get? id = some d := by
  simp only [toList, List.mem_filterMap, Option.map_eq_some_iff, Prod.mk.injEq]
  constructor
  · rintro ⟨_, _, _, hd, rfl, rfl⟩
    exact hd
  · intro hd
    exact ⟨id, (h.mem_order id).2 (Option.isSome_iff_exists.2 ⟨d, hd⟩), d, hd, rfl, rfl⟩

/-- **The search for a hash finds the download that has it.** -/
theorem Keyed.findByHash?_eq_some_iff (h : s.Keyed) {hash : Digest} :
    s.findByHash? hash = some id ↔ ∃ d, s.get? id = some d ∧ d.infoHash = hash := by
  simp only [findByHash?, Option.map_eq_some_iff]
  constructor
  · rintro ⟨⟨found, d⟩, hfound, rfl⟩
    have hhash := List.find?_some hfound
    exact ⟨d, h.mem_toList.1 (List.mem_of_find?_eq_some hfound), eq_of_beq hhash⟩
  · rintro ⟨d, hd, rfl⟩
    -- the search finds some entry with the hash, and no other download has it
    have hsome : (s.toList.find? fun entry => entry.2.infoHash == d.infoHash).isSome :=
      List.find?_isSome.2 ⟨(id, d), h.mem_toList.2 hd, beq_self_eq_true _⟩
    obtain ⟨⟨found, c⟩, hfound⟩ := Option.isSome_iff_exists.1 hsome
    have hhash := List.find?_some hfound
    have hc := h.mem_toList.1 (List.mem_of_find?_eq_some hfound)
    exact ⟨(found, c), hfound, h.apart hc hd (eq_of_beq hhash)⟩

/-- The text spells the hash of the download of the handle. -/
def Names (s : Session) (text : String) (id : DownloadId) : Prop :=
  ∃ d, s.get? id = some d ∧ d.infoHash.SpelledBy text

theorem Keyed.findByHex?_eq_some_iff (h : s.Keyed) {text : String} :
    s.findByHex? text = some id ↔ s.Names text id := by
  simp only [findByHex?, Option.bind_eq_some_iff, h.findByHash?_eq_some_iff, Names,
    Digest.ofHex?_eq_some_iff]
  constructor
  · rintro ⟨hash, hspelled, d, hd, rfl⟩
    exact ⟨d, hd, hspelled⟩
  · rintro ⟨d, hd, hspelled⟩
    exact ⟨d.infoHash, hspelled, d, hd, rfl⟩

/-! ## Sessions of manifests -/

/-- No download was removed yet. -/
structure Built (s : Session) : Prop where
  keyed : s.Keyed
  free : s.free = []
  full : ∀ slot ∈ s.slots, slot.generation = 0 ∧ slot.download.isSome = true

theorem built_empty : empty.Built where
  keyed := ⟨fun id => by simp [empty, contains, get?], fun h => by simp [empty, get?] at h⟩
  free := rfl
  full _ hslot := nomatch hslot

theorem get?_append (s : Session) (d : Download) (id : DownloadId) :
    (s.append d).2.get? id =
      if id.slot.toNat = s.slots.length then if id.generation = 0 then some d else none
      else s.get? id := by
  simp only [get?, append, List.getElem?_append, List.getElem?_singleton]
  by_cases hlast : id.slot.toNat = s.slots.length
  · simp [hlast, eq_comm]
  · by_cases hlt : id.slot.toNat < s.slots.length
    · simp [hlast, hlt]
    · have hne : id.slot.toNat - s.slots.length ≠ 0 := by omega
      simp [hlast, hlt, hne]

theorem Built.insert_eq (h : s.Built) (d : Download) :
    s.insert d = ((s.append d).1,
      { (s.append d).2 with order := s.order ++ [(s.append d).1] }) := by
  obtain ⟨slots, free, order⟩ := s
  obtain rfl : free = [] := h.free
  rfl

/-- What is in a session of a manifest after one more download. When there are no more indices, the
download cannot be reached and its handle is that of another one. -/
theorem Built.get?_insert (h : s.Built) (d : Download) (id : DownloadId) :
    (s.insert d).2.get? id =
      if s.slots.length < 2 ^ 32 ∧ id = (s.insert d).1 then some d else s.get? id := by
  have happend : (s.insert d).2.get? id = (s.append d).2.get? id := by rw [h.insert_eq]; rfl
  have hhandle : (s.insert d).1 = (s.append d).1 := by rw [h.insert_eq]
  have hslot := id.slot.toNat_lt
  rw [happend, hhandle, get?_append]
  by_cases hroom : s.slots.length < 2 ^ 32
  · have hindex : (UInt32.ofNat (min s.slots.length 4294967295)).toNat = s.slots.length := by
      rw [UInt32.toNat_ofNat_of_lt' (by simp only [UInt32.size]; omega)]
      omega
    have hid : id = (s.append d).1 ↔
        id.slot.toNat = s.slots.length ∧ id.generation = 0 := by
      obtain ⟨slot, generation⟩ := id
      simp only [append, DownloadId.mk.injEq, ← UInt32.toNat_inj, hindex]
    simp only [hroom, true_and, hid]
    by_cases hlast : id.slot.toNat = s.slots.length
    · by_cases hgeneration : id.generation = 0
      · simp [hlast, hgeneration]
      · have habsent : s.get? id = none := get?_absent (List.getElem?_eq_none (by omega))
        simp [hlast, hgeneration, habsent]
    · simp [hlast]
  · have hlast : id.slot.toNat ≠ s.slots.length := by omega
    rw [if_neg hlast, if_neg fun h => hroom h.1]

/-- The handle of the download that was inserted last is that of a download. -/
theorem Built.contains_insert (h : s.Built) (d : Download) (id : DownloadId) :
    (s.insert d).2.contains id = true ↔ s.contains id = true ∨ id = (s.insert d).1 := by
  rw [contains, h.get?_insert]
  by_cases hroom : s.slots.length < 2 ^ 32
  · simp only [hroom, true_and]
    by_cases hid : id = (s.insert d).1 <;> simp [hid, contains]
  · -- the last index is that of a slot that is in use
    have hlive : s.contains (s.insert d).1 = true := by
      have hindex : (s.insert d).1 = ⟨4294967295, 0⟩ := by
        rw [h.insert_eq]
        have hmin : min s.slots.length 4294967295 = 4294967295 := by omega
        simp only [append, hmin]
        rfl
      have hlt : (4294967295 : UInt32).toNat < s.slots.length := by
        have : (4294967295 : UInt32).toNat = 4294967295 := rfl
        omega
      obtain ⟨hgeneration, hsome⟩ := h.full _ (List.getElem_mem hlt)
      simp only [hindex, contains, get?, List.getElem?_eq_getElem hlt, Option.bind_eq_bind,
        Option.bind_some, hgeneration, if_true]
      exact hsome
    simp only [hroom, false_and, if_false]
    constructor
    · exact .inl
    · rintro (hid | rfl)
      · exact hid
      · exact hlive

theorem Built.insert (h : s.Built) (hnew : s.findByHash? d.infoHash = none) :
    (s.insert d).2.Built where
  keyed := by
    have hother {id : DownloadId} {c : Download} (hc : s.get? id = some c) :
        c.infoHash ≠ d.infoHash := by
      intro heq
      cases hnew.symm.trans (h.keyed.findByHash?_eq_some_iff.2 ⟨c, hc, heq⟩)
    constructor
    · intro id
      rw [h.contains_insert, ← h.keyed.mem_order, h.insert_eq]
      simp
    · intro id other b c hb hc heq
      rw [h.get?_insert] at hb hc
      split at hb <;> split at hc
      · rename_i hid hid'
        exact hid.2.trans hid'.2.symm
      · cases hb
        exact (hother hc heq.symm).elim
      · cases hc
        exact (hother hb heq).elim
      · exact h.keyed.apart hb hc heq
  free := by
    rw [h.insert_eq]
    exact h.free
  full slot hslot := by
    rw [h.insert_eq] at hslot
    rcases List.mem_append.1 hslot with hslot | hslot
    · exact h.full slot hslot
    · cases List.mem_singleton.1 hslot
      exact ⟨rfl, rfl⟩

theorem keyed_of_build {m : SessionManifest} (hbuild : m.build = .ok s) : s.Keyed :=
  (SessionManifest.build_induction (P := Built) hbuild built_empty
    fun _ _ _ _ _ hnew hbefore => hbefore.insert hnew).keyed

/-! ## What remains -/

/-- The second session has downloads of the first one only, with the hashes that they have there. -/
structure Remains (s t : Session) : Prop where
  keyed : t.Keyed
  hash {id : DownloadId} {d : Download} : t.get? id = some d →
    ∃ old, s.get? id = some old ∧ d.infoHash = old.infoHash

theorem Keyed.remains (h : s.Keyed) : s.Remains s :=
  ⟨h, fun hd => ⟨_, hd, rfl⟩⟩

variable {start : Session}

theorem Remains.removed (h : start.Remains s) (hremove : s.remove id = some (d, t)) :
    start.Remains t := by
  obtain ⟨hd, hvacates⟩ := vacates_of_remove hremove
  have hget {other : DownloadId} {c : Download} (hc : t.get? other = some c) :
      s.get? other = some c := by
    obtain ⟨_, hold, rfl⟩ := hvacates.retains (g := fun d => d) hd other c hc
    exact hold
  refine ⟨⟨fun other => ?_, fun hb hc => h.keyed.apart (hget hb) (hget hc)⟩,
    fun hc => h.hash (hget hc)⟩
  rw [hvacates.order, contains, hvacates.get? hd, List.mem_filter, h.keyed.mem_order, contains]
  split <;> simp [*]

theorem Remains.replaced {change : Download → Download} (h : start.Remains s)
    (hd : s.get? id = some d) (hchange : (change d).infoHash = d.infoHash) :
    start.Remains (s.replace id (change d)) := by
  have hreplaces := replaces hd (change d)
  have hretains : s.Retains Download.infoHash (s.replace id (change d)) :=
    hreplaces.retains hd hchange
  refine ⟨⟨fun other => ?_, fun hb hc heq => ?_⟩, fun hc => ?_⟩
  · rw [hreplaces.order, contains, hreplaces.get? hd, h.keyed.mem_order, contains]
    split <;> simp [*]
  · obtain ⟨b, hb, hhash⟩ := hretains _ _ hb
    obtain ⟨c, hc, hhash'⟩ := hretains _ _ hc
    exact h.keyed.apart hb hc (hhash.symm.trans (heq.trans hhash'))
  · obtain ⟨old, hold, hhash⟩ := hretains _ _ hc
    obtain ⟨first, hfirst, hhash'⟩ := h.hash hold
    exact ⟨first, hfirst, hhash.trans hhash'⟩

/-- **A text that names a download that was removed names nothing.** -/
theorem Remains.not_names (h : start.Remains s) (hstart : start.Keyed) (hd : start.get? id = some d)
    (hgone : s.get? id = none) {text : String} (hspelled : d.infoHash.SpelledBy text)
    (other : DownloadId) : ¬ s.Names text other := by
  rintro ⟨c, hc, hspelled'⟩
  obtain ⟨old, hold, hhash⟩ := h.hash hc
  cases hstart.apart hd hold ((hspelled.unique hspelled').trans hhash)
  cases hgone.symm.trans hc

end Session

/-! ## Runs -/

/-- **A run leaves some of the downloads, with their hashes.** -/
theorem Session.Remains.run {start : Session} {e : Engine} (h : start.Remains e.session) (job : Job)
    (hops left : Nat) : start.Remains (e.run (job.run hops left)).2.session := by
  refine Engine.run_acts_keep (P := fun e => start.Remains e.session) (fun inv e f h hact => ?_) h
    job hops left
  cases hact with
  | amended hinv hd => exact h.replaced hd (hinv.infoHash _)
  | removed _ hremove => exact h.removed hremove
  | _ => exact h

end TorrentControl
