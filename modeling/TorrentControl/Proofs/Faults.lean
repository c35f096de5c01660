import TorrentControl.Proofs.Description

/-! # Building a session

Downloads are built in the order in which they are described, and each one is looked up among those
before it. So the first fault that stands in a description, or between two of them, is the error that
is met, and without faults the session holds what the descriptions yield, in their order. An index of
a slot is a word of 32 bits: downloads that come behind as many share the last handle, so only the
first ones are told apart. -/

namespace TorrentControl

namespace Session

/-- How many slots have an index of their own. -/
def capacity : Nat := 4294967296

/-- The handle of the download that is inserted after so many others. -/
def handleAfter (n : Nat) : DownloadId :=
  ⟨UInt32.ofNat (min n 4294967295), 0⟩

/-- The session into which the downloads were inserted one after the other. -/
def holding (downloads : List Download) : Session where
  slots := downloads.map fun d => ⟨0, some d⟩
  free := []
  order := (List.range downloads.length).map handleAfter

theorem insert_holding (downloads : List Download) (d : Download) :
    ((holding downloads).insert d).2 = holding (downloads ++ [d]) := by
  simp [insert, append, holding, handleAfter, List.range_succ]

theorem get?_handleAfter (downloads : List Download) (n : Nat) :
    (holding downloads).get? (handleAfter n) = downloads[min n 4294967295]? := by
  have hslot : (handleAfter n).slot.toNat = min n 4294967295 :=
    UInt32.toNat_ofNat_of_lt' (by simp only [UInt32.size]; omega)
  rw [get?, hslot, holding, List.getElem?_map]
  cases downloads[min n 4294967295]? <;> simp [handleAfter]

theorem toList_holding (downloads : List Download) : (holding downloads).toList =
    (List.range downloads.length).filterMap fun n =>
      downloads[min n 4294967295]?.map fun d => (handleAfter n, d) := by
  change ((List.range downloads.length).map handleAfter).filterMap _ = _
  rw [List.filterMap_map]
  exact List.filterMap_congr fun n _ => by rw [Function.comp, get?_handleAfter]

/-- A download is listed if its slot has an index of its own. -/
theorem listed_iff {downloads : List Download} {d : Download} :
    (∃ id, (id, d) ∈ (holding downloads).toList) ↔ d ∈ downloads.take capacity := by
  simp only [toList_holding, List.mem_filterMap, List.mem_range, Option.map_eq_some_iff,
    Prod.mk.injEq, List.mem_take_iff_getElem, capacity]
  constructor
  · rintro ⟨id, n, hn, found, hfound, -, rfl⟩
    obtain ⟨hlt, heq⟩ := List.getElem?_eq_some_iff.1 hfound
    exact ⟨min n 4294967295, by omega, heq⟩
  · rintro ⟨n, hn, rfl⟩
    have hindex : min n 4294967295 = n := by omega
    have hlt : n < downloads.length := by omega
    exact ⟨_, n, hlt, _, by rw [hindex, List.getElem?_eq_getElem hlt], rfl, rfl⟩

/-- A hash is found if it is that of a download whose slot has an index of its own. -/
theorem findByHash?_holding {downloads : List Download} {hash : Digest} :
    ((holding downloads).findByHash? hash).isSome ↔
      ∃ d ∈ downloads.take capacity, d.infoHash = hash := by
  simp only [← listed_iff]
  rw [findByHash?, Option.isSome_map, List.find?_isSome]
  constructor
  · rintro ⟨⟨id, d⟩, hmem, heq⟩
    exact ⟨d, ⟨id, hmem⟩, eq_of_beq heq⟩
  · rintro ⟨d, ⟨id, hmem⟩, heq⟩
    exact ⟨(id, d), hmem, beq_iff_eq.2 heq⟩

/-- As long as all slots have indices of their own, the downloads are listed in order. -/
theorem map_snd_toList_holding {downloads : List Download} (h : downloads.length ≤ capacity) :
    (holding downloads).toList.map Prod.snd = downloads := by
  have hfound : (List.range downloads.length).map (fun n => downloads[min n 4294967295]?) =
      downloads.map some := by
    refine List.ext_getElem (by simp) fun n hn _ => ?_
    have hindex : min n 4294967295 = n := by
      simp only [List.length_map, List.length_range, capacity] at hn h
      omega
    simp [hindex]
  have hall := congrArg (List.filterMap id) hfound
  rw [toList_holding, List.map_filterMap]
  simpa [List.filterMap_map, Function.comp_def] using hall

end Session

/-! ## Faults -/

/-- The hash of a description, read. -/
def DownloadManifest.digest? (m : DownloadManifest) : Option Digest :=
  Digest.ofHex? m.hash

namespace SessionManifest

/-- The fault of a description whose hash is that of one before it, in letters of any case. -/
def duplicateFaults (before : List DownloadManifest) (m : DownloadManifest) : List ManifestError :=
  faultUnless (m.digest? ∉ (before.take Session.capacity).map DownloadManifest.digest?)
    (.duplicateHash (String.ofList (m.hash.toList.map Char.toUpper)))

/-- The faults of descriptions that come after others. -/
def faultsAfter (before : List DownloadManifest) : List DownloadManifest → List ManifestError
  | [] => []
  | m :: rest => m.faults ++ duplicateFaults before m ++ faultsAfter (before ++ [m]) rest

/-- All faults, in the order in which they are looked for. -/
def faults (m : SessionManifest) : List ManifestError :=
  faultsAfter [] m.downloads

/-- Every description can be read, and no two of them have the same hash. -/
structure Sound (m : SessionManifest) : Prop where
  legible : ∀ described ∈ m.downloads, described.Legible
  distinct : m.downloads.Pairwise fun one other => one.digest? ≠ other.digest?

/-! ## Building -/

theorem digest?_of_yields {m : DownloadManifest} {d : Download} (h : m.Yields d) :
    m.digest? = some d.infoHash :=
  Digest.ofHex?_eq_some_iff.2 h.texts.infoHash

/-- Downloads have the hashes of their descriptions. -/
theorem hashes_eq {before : List DownloadManifest} {downloads : List Download}
    (h : List.Forall₂ DownloadManifest.Yields before downloads) :
    before.map DownloadManifest.digest? = downloads.map fun d => some d.infoHash := by
  induction h with
  | nil => rfl
  | cons hfirst _ ih => rw [List.map_cons, List.map_cons, digest?_of_yields hfirst, ih]

/-- A download is found by its hash if its description is a duplicate. -/
theorem found_iff {before : List DownloadManifest} {downloads : List Download}
    (h : List.Forall₂ DownloadManifest.Yields before downloads) {m : DownloadManifest} {d : Download}
    (hd : m.Yields d) : ((Session.holding downloads).findByHash? d.infoHash).isSome ↔
      m.digest? ∈ (before.take Session.capacity).map DownloadManifest.digest? := by
  rw [Session.findByHash?_holding, hashes_eq (List.forall₂_take _ h), digest?_of_yields hd]
  simp only [List.mem_map, Option.some.injEq]

/-- What is built of one more description, after downloads. -/
def extend (s : Session) (m : DownloadManifest) : Except ManifestError Session := do
  let d ← m.build
  if (s.findByHash? d.infoHash).isSome then throw (.duplicateHash d.hashText)
  return (s.insert d).2

/-- **One more download is put behind the others, or the first fault of its description is met.** -/
theorem reports_extend {before : List DownloadManifest} {downloads : List Download}
    (h : List.Forall₂ DownloadManifest.Yields before downloads) (m : DownloadManifest) :
    Reports (m.faults ++ duplicateFaults before m)
      (fun s => ∃ d, m.Yields d ∧ s = Session.holding (downloads ++ [d]))
      (extend (Session.holding downloads) m) := by
  refine m.reports_build.bind fun d hd => ?_
  have hfound := found_iff h hd
  unfold duplicateFaults faultUnless
  by_cases hmem : m.digest? ∈ (before.take Session.capacity).map DownloadManifest.digest?
  · have hhash : d.hashText = String.ofList (m.hash.toList.map Char.toUpper) := by
      rw [hd.texts.infoHash, String.ofList_toList]
      rfl
    rw [if_pos (hfound.2 hmem), if_neg (not_not.2 hmem), hhash]
    rfl
  · rw [if_neg (mt hfound.1 hmem), if_pos hmem]
    exact reports_ok ⟨d, hd, Session.insert_holding downloads d⟩

theorem reports_foldlM {before : List DownloadManifest} {downloads : List Download}
    (h : List.Forall₂ DownloadManifest.Yields before downloads) (rest : List DownloadManifest) :
    Reports (faultsAfter before rest)
      (fun s => ∃ all, List.Forall₂ DownloadManifest.Yields (before ++ rest) all ∧
        s = Session.holding all)
      (rest.foldlM extend (Session.holding downloads)) := by
  induction rest generalizing before downloads with
  | nil => exact reports_ok ⟨downloads, by rwa [List.append_nil], rfl⟩
  | cons m rest ih =>
    rw [List.foldlM_cons, faultsAfter]
    refine (reports_extend h m).bind fun s ⟨d, hd, hs⟩ => ?_
    have hbehind := List.rel_append h (List.Forall₂.cons hd .nil)
    have hrest := ih hbehind
    rw [List.append_assoc] at hrest
    exact hs ▸ hrest

theorem reports_build (m : SessionManifest) :
    Reports m.faults
      (fun s => ∃ downloads, List.Forall₂ DownloadManifest.Yields m.downloads downloads ∧
        s = Session.holding downloads) m.build :=
  reports_foldlM (.nil : List.Forall₂ DownloadManifest.Yields [] []) m.downloads

/-! ## Manifests without faults -/

theorem faultsAfter_eq_nil_iff {before rest : List DownloadManifest}
    (h : before.length + rest.length ≤ Session.capacity) : faultsAfter before rest = [] ↔
      (∀ m ∈ rest, m.Legible) ∧ (rest.Pairwise fun one other => one.digest? ≠ other.digest?) ∧
        ∀ m ∈ rest, m.digest? ∉ before.map DownloadManifest.digest? := by
  induction rest generalizing before with
  | nil => simp [faultsAfter]
  | cons m rest ih =>
    rw [List.length_cons] at h
    have hbefore : before.take Session.capacity = before := List.take_of_length_le (by omega)
    have hroom : (before ++ [m]).length + rest.length ≤ Session.capacity := by
      rw [List.length_append, List.length_singleton]
      omega
    have hrest := ih hroom
    rw [faultsAfter, List.append_eq_nil_iff, List.append_eq_nil_iff, hrest,
      DownloadManifest.faults_eq_nil_iff, duplicateFaults, faultUnless_eq_nil, hbefore,
      List.pairwise_cons]
    simp only [List.forall_mem_cons, List.map_append, List.mem_append, List.map_cons, List.map_nil,
      List.mem_singleton, not_or]
    constructor
    · rintro ⟨⟨hm, hnew⟩, hlegible, hdistinct, hbehind⟩
      exact ⟨⟨hm, hlegible⟩, ⟨fun other hother => Ne.symm (hbehind other hother).2, hdistinct⟩,
        hnew, fun other hother => (hbehind other hother).1⟩
    · rintro ⟨⟨hm, hlegible⟩, ⟨hfirst, hdistinct⟩, hnew, hbehind⟩
      exact ⟨⟨hm, hnew⟩, hlegible, hdistinct, fun other hother =>
        ⟨hbehind other hother, (hfirst other hother).symm⟩⟩

theorem faults_eq_nil_iff {m : SessionManifest} (h : m.downloads.length ≤ Session.capacity) :
    m.faults = [] ↔ m.Sound := by
  rw [faults, faultsAfter_eq_nil_iff (by simpa using h)]
  exact ⟨fun ⟨hlegible, hdistinct, _⟩ => ⟨hlegible, hdistinct⟩,
    fun hsound => ⟨hsound.legible, hsound.distinct, fun _ _ => List.not_mem_nil⟩⟩

theorem state_not_mem_faultsAfter {download : String} {source : CommandError}
    (before rest : List DownloadManifest) : .state download source ∉ faultsAfter before rest := by
  induction rest generalizing before with
  | nil => exact List.not_mem_nil
  | cons m rest ih =>
    have hduplicate : .state download source ∉ duplicateFaults before m := by
      unfold duplicateFaults faultUnless
      split <;> simp
    simp only [faultsAfter, List.mem_append, not_or]
    exact ⟨⟨DownloadManifest.faults_ne_state, hduplicate⟩, ih _⟩

/-- **A session is built, or the first fault of its manifest is met.** The error is the first one in
the list of all faults, and never one of the state. What is built holds what the descriptions yield, in
their order. As long as every download has a handle of its own, there is a session exactly if every
description can be read and no two of them have the same hash, and the session lists the described
downloads. -/
theorem built_or_first_fault (m : SessionManifest) :
    (∀ e, m.build = .error e ↔ m.faults.head? = some e) ∧
    (∀ download source, m.build ≠ .error (.state download source)) ∧
    (∀ s, m.build = .ok s → ∃ downloads,
      List.Forall₂ DownloadManifest.Yields m.downloads downloads ∧ s = Session.holding downloads) ∧
    (m.downloads.length ≤ Session.capacity →
      ((∃ s, m.build = .ok s) ↔ m.Sound) ∧
      ∀ s, m.build = .ok s →
        List.Forall₂ DownloadManifest.Yields m.downloads (s.toList.map Prod.snd)) := by
  have hbuild := m.reports_build
  refine ⟨hbuild.eq_error_iff, ?_, fun s hs => hbuild.of_ok hs, fun hroom => ⟨?_, ?_⟩⟩
  · intro download source herror
    have hhead := (hbuild.eq_error_iff _).1 herror
    exact state_not_mem_faultsAfter [] m.downloads (List.mem_of_head? hhead)
  · exact hbuild.exists_ok_iff.trans (faults_eq_nil_iff hroom)
  · intro s hs
    obtain ⟨downloads, hyields, rfl⟩ := hbuild.of_ok hs
    rwa [Session.map_snd_toList_holding (hyields.length_eq ▸ hroom)]

end SessionManifest

end TorrentControl
