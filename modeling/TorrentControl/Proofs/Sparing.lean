import TorrentControl.Proofs.State

/-! # What actions on a download keep and spare

An action on a download writes some of its fields, and it may fail after some of its writes. A
property of downloads is kept if it holds of what the action leaves, whether it fails or not. What can
be read off the fields that are not written is spared: it is the same afterwards. No command writes
what identifies a download. -/

namespace TorrentControl

namespace Download.Edit

variable {α β γ : Type} {I : Download → Prop} {g : Download → γ}

/-! ## Properties that are kept -/

/-- The action leaves the property to a download that has it. -/
def Keeps (I : Download → Prop) (edit : Edit α) : Prop :=
  ∀ d, I d → I (edit.after d)

theorem Keeps.bind {edit : Edit α} {f : α → Edit β} (h : edit.Keeps I) (hf : ∀ a, (f a).Keeps I) :
    (edit >>= f).Keeps I := by
  intro d hd
  have ht := h d hd
  rw [after] at ht ⊢
  rcases hrun : edit.run.run d with ⟨c | a, t⟩
  · rw [hrun] at ht
    rwa [run_bind_error hrun]
  · rw [hrun] at ht
    rw [run_bind_ok hrun]
    exact hf a t ht

theorem keeps_pure (a : α) : (pure a : Edit α).Keeps I :=
  fun _ hd => hd

theorem keeps_get : (get : Edit Download).Keeps I :=
  fun _ hd => hd

theorem keeps_lift (x : Except CommandError α) : (lift x).Keeps I :=
  fun _ hd => hd

theorem keeps_throw (c : CommandError) : (throw c : Edit α).Keeps I :=
  fun _ hd => hd

theorem keeps_modify {change : Download → Download} (h : ∀ d, I d → I (change d)) :
    (modify change : Edit Unit).Keeps I :=
  h

/-- What goes on with a checked value may use that the check went through. -/
theorem keeps_lift_bind {x : Except CommandError α} {f : α → Edit β}
    (h : ∀ a, x = .ok a → (f a).Keeps I) : (lift x >>= f).Keeps I := by
  cases x with
  | error c => exact fun _ hd => hd
  | ok a => exact h a rfl

/-- What goes on with the download is run on it. -/
theorem keeps_get_bind {f : Download → Edit β} (h : ∀ d, I d → I ((f d).after d)) :
    (get >>= f : Edit β).Keeps I :=
  h

/-- A list is read without a change. -/
theorem keeps_items (name : String) (args : Value) :
    (ListOperation.items.perform name args).Keeps I :=
  keeps_get.bind fun _ => (keeps_lift _).bind fun _ => (keeps_lift _).bind fun _ => keeps_pure _

theorem keeps_has (name : String) (args : Value) : (ListOperation.has.perform name args).Keeps I :=
  keeps_get.bind fun _ => (keeps_lift _).bind fun _ => (keeps_lift _).bind fun _ => keeps_pure _

section State

/- A property of the other fields than the state. -/
variable (h : ∀ d state, I d → I { d with state })

include h

theorem keeps_onSection (change : Value → Except ValueError Value) : (onSection change).Keeps I := by
  intro d hd
  have hget := run_get d
  rw [after, onSection, run_bind_ok hget]
  rcases d.stateSection with c | old
  · exact hd
  · rw [run_bind_ok (run_lift (.ok old) d)]
    rcases CommandError.ofValue (change old) with c | new
    · exact hd
    · rw [run_bind_ok (run_lift (.ok new) d)]
      rcases CommandError.ofValue (d.state.replaceKey sectionName new) with c | state
      · exact hd
      · exact h d state hd

theorem keeps_enterState (state : Int64) : (enterState state).Keeps I :=
  (keeps_onSection h _).bind fun _ => keeps_onSection h _

theorem keeps_list (name : String) (args : Value) :
    ∀ operation : ListOperation, (operation.perform name args).Keeps I
  | .items => keeps_items name args
  | .has => keeps_has name args
  | .remove => (keeps_onSection h _).bind fun _ => keeps_pure _
  | .push => (keeps_onSection h _).bind fun _ => keeps_pure _
  | .pushUnique => (keeps_onSection h _).bind fun _ => keeps_pure _

end State

/-! ## What is spared -/

/-- What is read off the download is the same after the action. -/
def Spares (g : Download → γ) (edit : Edit α) : Prop :=
  ∀ d, g (edit.after d) = g d

theorem spares_iff_keeps {edit : Edit α} : edit.Spares g ↔ ∀ c, edit.Keeps fun d => g d = c :=
  ⟨fun h _ d hd => (h d).trans hd, fun h d => h (g d) d rfl⟩

theorem Spares.bind {edit : Edit α} {f : α → Edit β} (h : edit.Spares g)
    (hf : ∀ a, (f a).Spares g) : (edit >>= f).Spares g :=
  spares_iff_keeps.2 fun c => (spares_iff_keeps.1 h c).bind fun a => spares_iff_keeps.1 (hf a) c

theorem spares_get : (get : Edit Download).Spares g :=
  fun _ => rfl

theorem spares_lift (x : Except CommandError α) : (lift x).Spares g :=
  fun _ => rfl

theorem spares_throw (c : CommandError) : (throw c : Edit α).Spares g :=
  fun _ => rfl

theorem spares_modify {change : Download → Download} (h : ∀ d, g (change d) = g d) :
    (modify change : Edit Unit).Spares g :=
  h

section State

/- What is read off the other fields than the state. -/
variable (h : ∀ d state, g { d with state } = g d)

include h

theorem spares_of_keeps {edit : Edit α} (hkeeps : ∀ I : Download → Prop,
    (∀ d state, I d → I { d with state }) → edit.Keeps I) : edit.Spares g :=
  spares_iff_keeps.2 fun c => hkeeps (fun d => g d = c) fun d state hd => (h d state).trans hd

theorem spares_onSection (change : Value → Except ValueError Value) :
    (onSection change).Spares g :=
  spares_of_keeps h fun _ hI => keeps_onSection hI change

theorem spares_enterState (state : Int64) : (enterState state).Spares g :=
  spares_of_keeps h fun _ hI => keeps_enterState hI state

theorem spares_list (name : String) (args : Value) (operation : ListOperation) :
    (operation.perform name args).Spares g :=
  spares_of_keeps h fun _ hI => keeps_list hI name args operation

end State

/-! ## What identifies a download -/

end Download.Edit

/-- What a download is, apart from what becomes of it. -/
structure Download.Identity where
  name : String
  infoHash : Digest
  localId : Digest
  isPrivate : Bool
  isMultiFile : Bool
  peers : List Peer
  bitfield : List UInt8
  /-- The paths and the sizes of the files. -/
  files : List (List String × Int64)
  /-- The addresses of the trackers. -/
  trackers : List String
deriving DecidableEq

def Download.identity (d : Download) : Identity where
  name := d.name
  infoHash := d.infoHash
  localId := d.localId
  isPrivate := d.isPrivate
  isMultiFile := d.files.isMultiFile
  peers := d.peers
  bitfield := d.bitfield
  files := d.files.files.map fun file => (file.path, file.size)
  trackers := d.trackers.trackers.map Tracker.url

namespace Download.Edit

theorem spares_identity_setInt (n : Int64) (setting : IntSetting) :
    (setting.assign n).Spares identity := by
  cases setting with
  | maxFileSize | peersMin | peersMax | uploadsMax =>
    exact (spares_lift _).bind fun _ => spares_modify fun _ => rfl
  | hashFailed | peerExchange | trackerNumWant => exact spares_modify fun _ => rfl
  | priority =>
    simp only [IntSetting.assign]
    split
    · exact (spares_throw _).bind fun _ => spares_modify fun _ => rfl
    · exact spares_modify fun _ => rfl
  | variableNamed name => exact spares_onSection (fun _ _ => rfl) _

theorem spares_identity_setText (s : String) (setting : TextSetting) :
    (setting.assign s).Spares identity := by
  cases setting with
  | message | directory | directoryBase => exact spares_modify fun _ => rfl
  | connection =>
    simp only [TextSetting.assign]
    split
    · exact spares_modify fun _ => rfl
    · exact spares_throw _
  | addedPeer =>
    refine spares_get.bind fun d => ?_
    dsimp only
    split
    · exact (spares_throw _).bind fun _ => (spares_lift _).bind fun _ => spares_modify fun _ => rfl
    · exact (spares_lift _).bind fun _ => spares_modify fun _ => rfl
  | variableNamed name => exact spares_onSection (fun _ _ => rfl) _

theorem spares_identity_act (action : DownloadAction) : action.act.Spares identity := by
  cases action with
  | resume | pause =>
    refine Spares.bind (spares_modify ?_) fun _ => spares_enterState (fun _ _ => rfl) _
    exact fun _ => rfl
  | openStorage => exact spares_modify fun _ => rfl
  | closeStorage | checkHash =>
    refine spares_get.bind fun d => ?_
    dsimp only
    split
    · exact (spares_throw _).bind fun _ => spares_modify fun _ => rfl
    · exact spares_modify fun _ => rfl

end Download.Edit

theorem map_modify_eq {α β : Type} {g : α → β} {f : α → α} (h : ∀ a, g (f a) = g a) (l : List α)
    (i : Nat) : (l.modify i f).map g = l.map g := by
  refine List.ext_getElem? fun j => ?_
  rw [List.getElem?_map, List.getElem?_map, List.getElem?_modify]
  cases l[j]? with
  | none => rfl
  | some a =>
    by_cases hj : i = j
    · simp [hj, h]
    · simp [hj]

/-- **No invocation amends what identifies a download.** -/
theorem Invocation.Amends.identity {inv : Invocation} {id : DownloadId} {f : Download → Download}
    (h : inv.Amends id f) (d : Download) : (f d).identity = d.identity := by
  cases h with
  | setInt setting n => exact Download.Edit.spares_identity_setInt n setting d
  | setText setting s => exact Download.Edit.spares_identity_setText s setting d
  | act action => exact Download.Edit.spares_identity_act action d
  | list name operation args => exact Download.Edit.spares_list (fun _ _ => rfl) name args operation d
  | setCustom key text => exact Download.Edit.spares_onSection (fun _ _ => rfl) _ d
  | setPriority ref priority =>
    have hfiles := map_modify_eq (g := fun file : File => (file.path, file.size))
      (f := fun file => { file with priority }) (fun _ => rfl) d.files.files ref.index
    simp only [Download.onFile, Download.identity, hfiles]
  | setEnabled ref isEnabled =>
    have htrackers := map_modify_eq (g := Tracker.url)
      (f := fun tracker => { tracker with isEnabled }) (fun _ => rfl) d.trackers.trackers ref.index
    simp only [Download.onTracker, Download.identity, htrackers]

theorem Invocation.Amends.infoHash {inv : Invocation} {id : DownloadId} {f : Download → Download}
    (h : inv.Amends id f) (d : Download) : (f d).infoHash = d.infoHash :=
  congrArg Download.Identity.infoHash (h.identity d)

end TorrentControl
