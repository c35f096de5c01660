import TorrentControl.Proofs.Layout
import TorrentControl.Proofs.Settings
import TorrentControl.Proofs.Switching

/-! # How much of a payload is complete

The verified chunks are never more than there are, and the bytes in them never more than the payload
has. Where no size and no count is negative, the last chunk may be short and all sums may have been cut
off at the greatest word; what is complete and what is left still add up, nothing is left exactly when
all chunks are verified, and a file with more verified chunks never makes less complete. A verification
takes what is complete over into the download. -/

namespace TorrentControl

open Number.Word (clamp toInt_clamp least greatest)

namespace FileList

/-! ## Caps -/

section Caps

variable (list : FileList)

/-- The verified chunks of the files, before they are capped. -/
def countedChunks : Int64 :=
  saturatingSum (list.files.map File.completedChunks)

theorem toInt_completedChunks :
    list.completedChunks.toInt = min list.countedChunks.toInt list.sizeInChunks.toInt := by
  unfold completedChunks countedChunks
  dsimp only
  split <;> omega

theorem toInt_completedBytes : list.completedBytes.toInt =
    min (max least (min (list.completedChunks.toInt * list.chunk) greatest)) list.size.toInt := by
  rw [← toInt_clamp]
  unfold completedBytes
  dsimp only
  split <;> omega

theorem completedChunks_le : list.completedChunks.toInt ≤ list.sizeInChunks.toInt := by
  rw [toInt_completedChunks]
  exact Int.min_le_right ..

theorem completedBytes_le : list.completedBytes.toInt ≤ list.size.toInt := by
  rw [toInt_completedBytes]
  exact Int.min_le_right ..

theorem leftBytes_nonneg : 0 ≤ list.leftBytes.toInt := by
  have hle := list.completedBytes_le
  rw [leftBytes, toInt_clamp]
  unfold least greatest
  omega

end Caps

/-! ## Counts that are not negative -/

variable {list : FileList}

/-- No file has a negative size or a negative number of verified chunks. -/
def Unsigned (list : FileList) : Prop :=
  ∀ file ∈ list.files, 0 ≤ file.size.toInt ∧ 0 ≤ file.completedChunks.toInt

namespace Unsigned

variable (h : list.Unsigned)

include h

theorem size_nonneg : 0 ≤ list.size.toInt := by
  have hsizes : ∀ w ∈ list.files.map File.size, 0 ≤ w.toInt :=
    List.forall_mem_map.2 fun file hfile => (h file hfile).1
  have hsum := trueSum_nonneg hsizes
  rw [size, toInt_saturatingSum hsizes, greatest]
  omega

theorem toInt_countedChunks : list.countedChunks.toInt =
    min (trueSum (list.files.map File.completedChunks)) greatest :=
  toInt_saturatingSum (List.forall_mem_map.2 fun file hfile => (h file hfile).2)

theorem completedChunks_nonneg : 0 ≤ list.completedChunks.toInt := by
  have hcounts : ∀ w ∈ list.files.map File.completedChunks, 0 ≤ w.toInt :=
    List.forall_mem_map.2 fun file hfile => (h file hfile).2
  have hsum := trueSum_nonneg hcounts
  have hlow := list.chunkFloor_nonneg h.size_nonneg
  have hhigh := list.chunkFloor_le_chunkCeil h.size_nonneg
  rw [toInt_completedChunks, h.toInt_countedChunks,
    list.toInt_sizeInChunks_of_nonneg h.size_nonneg, greatest]
  omega

/-- Without negative counts nothing is cut off below, and what is cut off above is more than there
is. -/
theorem toInt_completedBytes :
    list.completedBytes.toInt = min (list.completedChunks.toInt * list.chunk) list.size.toInt := by
  have hcovered := Int.mul_nonneg h.completedChunks_nonneg list.chunk_pos.le
  have hword := list.size.toInt_lt
  rw [list.toInt_completedBytes]
  unfold least greatest
  omega

theorem completedBytes_nonneg : 0 ≤ list.completedBytes.toInt := by
  have hcovered := Int.mul_nonneg h.completedChunks_nonneg list.chunk_pos.le
  have hsize := h.size_nonneg
  rw [h.toInt_completedBytes]
  omega

theorem toInt_leftBytes :
    list.leftBytes.toInt = list.size.toInt - list.completedBytes.toInt := by
  have hnonneg := h.completedBytes_nonneg
  have hle := list.completedBytes_le
  have hword := list.size.toInt_lt
  rw [leftBytes, toInt_clamp]
  unfold least greatest
  omega

/-- **Nothing is left exactly when all chunks are verified.** -/
theorem leftBytes_eq_zero_iff : list.leftBytes = 0 ↔ list.completedChunks = list.sizeInChunks := by
  have hcovers := list.chunkCeil_le_iff list.size.toInt list.completedChunks.toInt
  have hle := list.completedChunks_le
  have hbytes := h.toInt_completedBytes
  rw [← list.toInt_sizeInChunks_of_nonneg h.size_nonneg] at hcovers
  rw [← Int64.toInt_inj, ← Int64.toInt_inj, h.toInt_leftBytes, Int64.toInt_zero]
  omega

end Unsigned

/-! ### More verified chunks -/

/-- The list with another number of verified chunks for a file. -/
def verify (list : FileList) (i : Nat) (count : Int64) : FileList :=
  { list with files := list.files.modify i fun file => { file with completedChunks := count } }

/-- The file at the index has at most so many verified chunks, if it is there. -/
def HasAtMost (list : FileList) (i : Nat) (count : Int64) : Prop :=
  ∀ file, list.files[i]? = some file → file.completedChunks.toInt ≤ count.toInt

variable {i : Nat} {count : Int64}

theorem size_verify : (list.verify i count).size = list.size := by
  have hsizes : (list.verify i count).files.map File.size = list.files.map File.size :=
    map_modify_eq (f := fun file => { file with completedChunks := count }) (fun _ => rfl) list.files i
  rw [size, hsizes, size]

theorem sizeInChunks_verify : (list.verify i count).sizeInChunks = list.sizeInChunks := by
  rw [sizeInChunks, size_verify]
  rfl

theorem trueSum_verify_le {files : List File}
    (h : ∀ file, files[i]? = some file → file.completedChunks.toInt ≤ count.toInt) :
    trueSum (files.map File.completedChunks) ≤
      trueSum ((files.modify i fun file => { file with completedChunks := count }).map
        File.completedChunks) := by
  induction files generalizing i with
  | nil => simp
  | cons file files ih =>
    cases i with
    | zero =>
      have hfirst := h file rfl
      simp only [List.modify_zero_cons, List.map_cons, trueSum_cons]
      omega
    | succ i =>
      have hrest := ih (i := i) fun other hother => h other hother
      simp only [List.modify_succ_cons, List.map_cons, trueSum_cons]
      omega

theorem Unsigned.verify (h : list.Unsigned) (hmore : list.HasAtMost i count) :
    (list.verify i count).Unsigned := by
  intro file hfile
  obtain ⟨j, hj⟩ := List.mem_iff_getElem?.1 hfile
  rw [FileList.verify, List.getElem?_modify] at hj
  obtain ⟨old, hold, rfl⟩ := Option.map_eq_some_iff.1 hj
  have hkept := h old (List.mem_of_getElem? hold)
  split
  · rename_i hij
    exact ⟨hkept.1, hkept.2.trans (hmore old (hij ▸ hold))⟩
  · exact hkept

/-- **With more verified chunks of a file no less is complete.** -/
theorem Unsigned.completedBytes_verify (h : list.Unsigned) (hmore : list.HasAtMost i count) :
    list.completedBytes.toInt ≤ (list.verify i count).completedBytes.toInt := by
  have hsum : trueSum (list.files.map File.completedChunks) ≤
      trueSum ((list.verify i count).files.map File.completedChunks) := trueSum_verify_le hmore
  have hchunks : list.completedChunks.toInt ≤ (list.verify i count).completedChunks.toInt := by
    rw [toInt_completedChunks, toInt_completedChunks, h.toInt_countedChunks,
      (h.verify hmore).toInt_countedChunks, sizeInChunks_verify]
    omega
  have hcovered : list.completedChunks.toInt * list.chunk ≤
      (list.verify i count).completedChunks.toInt * list.chunk :=
    Int.mul_le_mul_of_nonneg_right hchunks list.chunk_pos.le
  rw [h.toInt_completedBytes, (h.verify hmore).toInt_completedBytes, size_verify,
    show (list.verify i count).chunk = list.chunk from rfl]
  omega

end FileList

/-! ## Verifying -/

section CheckHash

variable {e t : Engine} {target : Target} {args v : Value} {hops left : Nat}

/-- What a verification leaves of a download that is not active. -/
def Download.verified (d : Download) : Download :=
  { d with
    isHashChecking := false
    isHashChecked := true
    hasHashFailed := false
    chunksHashed := d.files.sizeInChunks
    bytesDone := d.files.completedBytes }

theorem Download.run_checkHash (d : Download) : Edit.checkHash.run.run d =
    if d.isActive then (.error (.input .checkWhileActive), d) else (.ok (), d.verified) := by
  simp only [Edit.checkHash]
  rw [Edit.run_bind_ok (show (get : Edit Download).run.run d = (.ok d, d) from rfl)]
  split <;> rfl

@[simp] theorem Download.files_verified (d : Download) : d.verified.files = d.files := rfl

@[simp] theorem Download.bytesDone_verified (d : Download) :
    d.verified.bytesDone = d.files.completedBytes := rfl

theorem Builtin.checkHash_mem : order "d.check_hash" (.act .checkHash) ∈ all := by
  simp [all, lifecycle]

/-- A verification that goes through was one of a download, and leaves it verified. -/
theorem Engine.exists_changes_of_checkHash (hintact : e.commands.Intact)
    (h : e.run ((Job.call "d.check_hash" target args).run hops left) = (.ok v, t)) :
    ∃ id d, target = .download id ∧ e.Changes t id d d.verified := by
  obtain ⟨entry, hentry, hcallable⟩ := hintact _ Builtin.checkHash_mem
  obtain ⟨inv, hreceives, hrun⟩ := Task.exists_receives_of_run_call hentry h
  rw [hcallable] at hreceives
  cases hreceives with
  | @download _ id htarget =>
    rw [Invocation.plan, DownloadCommand.plan, Plan.run_bind, Plan.run_lift] at hrun
    obtain ⟨_, u, hverified, hdone⟩ := run_bind_eq_ok_iff.1 hrun
    obtain ⟨d, d', hchanges, hedit⟩ := exists_changes_of_onDownload hverified
    cases hdone
    rw [DownloadAction.act, Download.run_checkHash] at hedit
    split at hedit <;> cases hedit
    exact ⟨id, d, htarget, hchanges⟩

/-- **After a verification the bytes that are done are the bytes that are complete**, which are no
more than there are. -/
theorem Engine.checkHash_done (hintact : e.commands.Intact)
    (h : e.run ((Job.call "d.check_hash" target args).run hops left) = (.ok v, t)) :
    ∃ id d size, target = .download id ∧ t.session.get? id = some d ∧
      (∀ params, t.Answers "d.get_bytes_done" target params (.int d.bytesDone)) ∧
      (∀ params, t.Answers "d.get_completed_bytes" target params (.int d.bytesDone)) ∧
      (∀ params, t.Answers "d.get_size_bytes" target params (.int size)) ∧
      d.bytesDone.toInt ≤ size.toInt := by
  obtain ⟨id, d, rfl, hchanges⟩ := exists_changes_of_checkHash hintact h
  have hdone : Builtin.readInt "d.get_bytes_done" .bytesDone ∈ Builtin.all := by
    simp [Builtin.all, Builtin.statistics]
  have hcomplete : Builtin.readInt "d.get_completed_bytes" .completedBytes ∈ Builtin.all := by
    simp [Builtin.all, Builtin.statistics]
  have hsize : Builtin.readInt "d.get_size_bytes" .sizeInBytes ∈ Builtin.all := by
    simp [Builtin.all, Builtin.statistics]
  have hanswers {key : String} {r : DownloadReading} {w : Value} (hb : .readInt key r ∈ Builtin.all)
      (hread : r.read d.verified = .ok w) (params : Value) :
      t.Answers key (.download id) params w :=
    hchanges.answers_read (b := .readInt key r) hintact hb rfl hread
  refine ⟨id, d.verified, d.verified.files.size, rfl, hchanges.get?_self,
    hanswers hdone rfl, hanswers hcomplete ?_, hanswers hsize rfl, ?_⟩
  · rw [Download.bytesDone_verified, DownloadReading.read, Download.files_verified]
  · rw [Download.bytesDone_verified, Download.files_verified]
    exact d.files.completedBytes_le

end CheckHash

/-- **What is complete and what is left are consistent.** For all sizes, counts and chunk sizes: no
more chunks are complete than there are, no more bytes than there are, and what is left is not
negative. Where no size and no count is negative, however great they are: what is complete is not
negative either, it and what is left are the payload, nothing is left exactly when all chunks are
complete, and more verified chunks of a file never make less complete. And where the built-in keys are
bound to the built-in commands, a verification that goes through leaves as many bytes done as are
complete, which are no more than there are. -/
theorem completion_is_consistent :
    (∀ list : FileList, list.completedChunks.toInt ≤ list.sizeInChunks.toInt ∧
      list.completedBytes.toInt ≤ list.size.toInt ∧ 0 ≤ list.leftBytes.toInt) ∧
    (∀ list : FileList, list.Unsigned →
      0 ≤ list.completedBytes.toInt ∧
      list.completedBytes.toInt + list.leftBytes.toInt = list.size.toInt ∧
      (list.leftBytes = 0 ↔ list.completedChunks = list.sizeInChunks) ∧
      ∀ i count, list.HasAtMost i count →
        list.completedBytes.toInt ≤ (list.verify i count).completedBytes.toInt) ∧
    ∀ (e : Engine) (target : Target) (args : Value) (hops left : Nat) (v : Value) (t : Engine),
      e.commands.Intact →
      e.run ((Job.call "d.check_hash" target args).run hops left) = (.ok v, t) →
        ∃ id d size, target = .download id ∧ t.session.get? id = some d ∧
          (∀ params, t.Answers "d.get_bytes_done" target params (.int d.bytesDone)) ∧
          (∀ params, t.Answers "d.get_completed_bytes" target params (.int d.bytesDone)) ∧
          (∀ params, t.Answers "d.get_size_bytes" target params (.int size)) ∧
          d.bytesDone.toInt ≤ size.toInt := by
  refine ⟨fun list => ⟨list.completedChunks_le, list.completedBytes_le, list.leftBytes_nonneg⟩,
    fun list h => ⟨h.completedBytes_nonneg, ?_, h.leftBytes_eq_zero_iff,
      fun i count => h.completedBytes_verify⟩,
    fun e target args hops left v t => Engine.checkHash_done⟩
  rw [h.toInt_leftBytes]
  omega

/-- Two files of the greatest size, in chunks of ten bytes, of which the second one has no verified
chunk. -/
def FileList.saturated : FileList :=
  { empty with
    chunkSize := 10
    files := [{ File.ofPath "a" Int64.maxValue with completedChunks := 922337203685477580 },
      .ofPath "b" Int64.maxValue] }

/-- A session with one download that has these files. -/
def Session.saturated : Session :=
  (Session.empty.insert { Download.fresh "a" .zero with files := .saturated }).2

/-- Of what the greatest word counts the last chunk is missing, which is short. Once the second file
has a verified chunk, nothing is left. -/
theorem saturated_consistent : FileList.saturated.Unsigned ∧
    FileList.saturated.completedBytes.toInt + 7 = FileList.saturated.size.toInt ∧
    FileList.saturated.completedChunks ≠ FileList.saturated.sizeInChunks ∧
    FileList.saturated.completedBytes.toInt ≤ (FileList.saturated.verify 1 1).completedBytes.toInt ∧
    (FileList.saturated.verify 1 1).leftBytes = 0 ∧
    ∃ t, (Engine.withBuiltins .saturated .empty).call "d.check_hash" (.download ⟨0, 0⟩) .empty =
        (.ok .empty, t) ∧
      t.Answers "d.get_completed_bytes" (.download ⟨0, 0⟩) .empty (.int 9223372036854775800) := by
  have hunsigned : FileList.saturated.Unsigned := by
    unfold FileList.Unsigned
    decide
  have hmore : FileList.saturated.HasAtMost 1 1 := by
    intro file hfile
    cases hfile
    decide
  obtain ⟨-, hlists, hverifies⟩ := completion_is_consistent
  obtain ⟨-, hadds, hleft, hmonotone⟩ := hlists _ hunsigned
  obtain ⟨-, -, hnone, -⟩ := hlists _ (hunsigned.verify hmore)
  have hseven : FileList.saturated.leftBytes = 7 := by decide
  have hintact := Engine.intact_withBuiltins Session.saturated .empty
  obtain ⟨d, hlive, hactive, hfiles⟩ :
      ∃ d, Session.saturated.get? ⟨0, 0⟩ = some d ∧ d.isActive = false ∧ d.files = .saturated :=
    ⟨_, rfl, rfl, rfl⟩
  have hedit : DownloadAction.checkHash.act.run.run d = (.ok (), d.verified) := by
    rw [DownloadAction.act, Download.run_checkHash, hactive]
    rfl
  have hrun := run_action Builtin.checkHash_mem hedit hintact hlive .empty hopLimit scriptLimit
  obtain ⟨id, _, size, hid, hget, -, hcomplete, -⟩ := hverifies _ _ _ _ _ _ _ hintact hrun
  cases hid
  rw [Engine.get?_put hlive] at hget
  cases hget
  refine ⟨hunsigned, ?_, ?_, hmonotone 1 1 hmore, hnone.2 (by decide), _, hrun, ?_⟩
  · rw [← hadds, hseven]
    rfl
  · rw [Ne, ← hleft, hseven]
    decide
  · have hbytes : d.verified.bytesDone = 9223372036854775800 := by
      rw [Download.bytesDone_verified, hfiles]
      decide
    rw [← hbytes]
    exact hcomplete .empty

end TorrentControl
