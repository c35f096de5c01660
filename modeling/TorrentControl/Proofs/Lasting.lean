import TorrentControl.Proofs.Attempts
import TorrentControl.Proofs.Number.Decimal
import TorrentControl.Proofs.Session

/-! # What lasts of a download

A download of a manifest is laid out so that it is open if it is active, that no limit is negative,
and that no peer waits for a private one. Every setting checks what it is given, and every action
checks the download before it closes it, so all of this lasts, whatever commands are run. So does what
the manifest says of the download: its names, hashes and flags, its peers and bitfield, and the paths,
sizes and addresses of its files and trackers. -/

namespace TorrentControl

namespace Download

/-! ## Addresses that wait -/

/-- The text is a host, a colon and a port. A host has no colon, so the text is so in one way only. -/
def IsPeerAddress (text : String) : Prop :=
  ∃ (host : String) (port : Int64), host ≠ "" ∧ ':' ∉ host.toList ∧
    (1 ≤ port.toInt ∧ port.toInt ≤ 65535) ∧
      text = host ++ ":" ++ Number.Decimal.writeWord port

/-- Either there is no colon in an address, or what stands before the first is a host. -/
theorem address_cases (address : String) : ':' ∉ address.toList ∨
    ∃ host text : String, address = host ++ ":" ++ text ∧ ':' ∉ host.toList := by
  rcases Text.splitFirst_cases ':' address.toList with h | ⟨before, after, h, hbefore⟩
  · exact .inl h
  · refine .inr ⟨.ofList before, .ofList after, ?_, by simpa using hbefore⟩
    apply String.toList_injective
    simpa using h

theorem readPeerAddress_bare {address : String} (h : ':' ∉ address.toList) :
    readPeerAddress address =
      if address = "" then .error (.input .unreadableHost) else .ok (address, standardPeerPort) := by
  have hport : 1 ≤ standardPeerPort.toInt ∧ standardPeerPort.toInt ≤ 65535 := by decide
  have hname : address.toList = [] ↔ address = "" := by simp
  unfold readPeerAddress
  rw [Text.splitFirst_of_not_mem h]
  simp only [pure_bind, hname, if_pos hport, String.ofList_toList]
  split <;> rfl

theorem readPeerAddress_port {host text : String} (h : ':' ∉ host.toList) :
    readPeerAddress (host ++ ":" ++ text) =
      match Number.Decimal.readWord? text.toList with
      | none => .error (.input .unreadableHost)
      | some port =>
        if host = "" then .error (.input .unreadableHost)
        else if 1 ≤ port.toInt ∧ port.toInt ≤ 65535 then .ok (host, port)
        else .error (.input .invalidPort) := by
  have hsplit : Text.splitFirst ':' (host ++ ":" ++ text).toList =
      (host.toList, some text.toList) := by
    simpa using Text.splitFirst_append h text.toList
  have hname : host.toList = [] ↔ host = "" := by simp
  unfold readPeerAddress
  rw [hsplit]
  dsimp only
  cases Number.Decimal.readWord? text.toList with
  | none => rfl
  | some port =>
    simp only [pure_bind, hname, String.ofList_toList]
    split
    · rfl
    · split <;> rfl

/-- What is read of an address is a host and a port that can be written as one. -/
theorem isPeerAddress_of_read {address host : String} {port : Int64}
    (h : readPeerAddress address = .ok (host, port)) :
    IsPeerAddress (host ++ ":" ++ Number.Decimal.writeWord port) := by
  rcases address_cases address with hbare | ⟨name, text, rfl, hname⟩
  · rw [readPeerAddress_bare hbare] at h
    split at h
    · cases h
    · rename_i hne
      cases h
      exact ⟨_, _, hne, hbare, by decide, rfl⟩
  · rw [readPeerAddress_port hname] at h
    split at h
    · cases h
    · split at h
      · cases h
      · rename_i hne
        split at h
        · rename_i hport
          cases h
          exact ⟨_, _, hne, hname, hport, rfl⟩
        · cases h

/-- An address that waits is read as what it was written from. -/
theorem readPeerAddress_write {host : String} {port : Int64} (hne : host ≠ "")
    (hcolon : ':' ∉ host.toList) (hport : 1 ≤ port.toInt ∧ port.toInt ≤ 65535) :
    readPeerAddress (host ++ ":" ++ Number.Decimal.writeWord port) = .ok (host, port) := by
  rw [readPeerAddress_port hcolon, Number.Decimal.readWord?_writeWord]
  simp only [if_neg hne, if_pos hport]

/-- **An address that waits is queued unchanged**, by any download that is not private. -/
theorem run_addPeer {peer : String} (h : IsPeerAddress peer) {d : Download}
    (hpublic : d.isPrivate = false) : (Edit.addPeer peer).run.run d =
      (.ok (), { d with pendingPeers := d.pendingPeers ++ [peer] }) := by
  obtain ⟨host, port, hne, hcolon, hport, rfl⟩ := h
  rw [Edit.addPeer, Edit.run_bind_ok (Edit.run_get d)]
  dsimp only
  rw [if_neg (by simp [hpublic]), readPeerAddress_write hne hcolon hport,
    Edit.run_bind_ok (Edit.run_lift _ d)]
  rfl

/-! ## What no command breaks -/

/-- A download is open if it is active, has no negative limits, and no peer waits for it if it is
private. Where peers wait, their addresses can be read. -/
structure Lawful (d : Download) : Prop where
  isOpen : d.isActive = true → d.isOpen = true
  peersMin : 0 ≤ d.peersMin.toInt
  peersMax : 0 ≤ d.peersMax.toInt
  uploadsMax : 0 ≤ d.uploadsMax.toInt
  maxFileSize : 0 ≤ d.files.maxFileSize.toInt
  alone : d.isPrivate = true → d.pendingPeers = []
  addresses : ∀ peer ∈ d.pendingPeers, IsPeerAddress peer

/-- The state may be anything. -/
theorem lawful_withState (d : Download) (state : Value) (hd : d.Lawful) :
    Lawful { d with state } :=
  { hd with }

namespace Edit

/-- A setting that must not be negative is not. -/
theorem keeps_nonNegative {I : Download → Prop} {n : Int64} {change : Int64 → Download → Download}
    (h : 0 ≤ n.toInt → ∀ d, I d → I (change n d)) :
    (do let n ← lift (nonNegative n); modify (change n) : Edit Unit).Keeps I := by
  refine keeps_lift_bind fun a ha => keeps_modify fun d hd => ?_
  unfold nonNegative at ha
  split at ha
  · cases ha
  · cases ha
    exact h (by omega) d hd

theorem keeps_lawful_setInt (n : Int64) (setting : IntSetting) :
    (setting.assign n).Keeps Lawful := by
  cases setting with
  | maxFileSize => exact keeps_nonNegative fun hn d hd => { hd with maxFileSize := hn }
  | peersMin => exact keeps_nonNegative fun hn d hd => { hd with peersMin := hn }
  | peersMax => exact keeps_nonNegative fun hn d hd => { hd with peersMax := hn }
  | uploadsMax => exact keeps_nonNegative fun hn d hd => { hd with uploadsMax := hn }
  | hashFailed | peerExchange | trackerNumWant => exact keeps_modify fun d hd => { hd with }
  | priority =>
    simp only [IntSetting.assign]
    split
    · exact (keeps_throw _).bind fun _ => keeps_modify fun d hd => { hd with }
    · exact keeps_modify fun d hd => { hd with }
  | variableNamed name => exact keeps_onSection lawful_withState _

theorem keeps_lawful_addPeer (address : String) : (addPeer address).Keeps Lawful := by
  refine keeps_get_bind fun d hd => ?_
  dsimp only
  split
  · exact hd
  · rename_i hpublic
    refine And.left (keeps_lift_bind (I := fun d => d.Lawful ∧ d.isPrivate ≠ true)
      (fun entry hread => keeps_modify fun d hd => ?_) d ⟨hd, hpublic⟩)
    have hlast := isPeerAddress_of_read hread
    refine ⟨{ hd.1 with alone := fun h => absurd h hd.2, addresses := ?_ }, hd.2⟩
    exact List.forall_mem_append.2 ⟨hd.1.addresses, List.forall_mem_singleton.2 hlast⟩

theorem keeps_lawful_setText (s : String) (setting : TextSetting) :
    (setting.assign s).Keeps Lawful := by
  cases setting with
  | message | directory | directoryBase => exact keeps_modify fun d hd => { hd with }
  | connection =>
    simp only [TextSetting.assign]
    split
    · exact keeps_modify fun d hd => { hd with }
    · exact keeps_throw _
  | addedPeer => exact keeps_lawful_addPeer s
  | variableNamed name => exact keeps_onSection lawful_withState _

theorem keeps_lawful_act (action : DownloadAction) : action.act.Keeps Lawful := by
  cases action with
  | resume =>
    refine Keeps.bind (keeps_modify ?_) fun _ => keeps_enterState lawful_withState 1
    exact fun d hd => { hd with isOpen := fun _ => rfl }
  | pause =>
    refine Keeps.bind (keeps_modify ?_) fun _ => keeps_enterState lawful_withState 0
    exact fun d hd => { hd with isOpen := nofun }
  | openStorage => exact keeps_modify fun d hd => { hd with isOpen := fun _ => rfl }
  | closeStorage =>
    refine keeps_get_bind fun d hd => ?_
    dsimp only
    split
    · exact hd
    · rename_i hinactive
      exact { hd with isOpen := fun h => absurd h hinactive }
  | checkHash =>
    refine keeps_get_bind fun d hd => ?_
    dsimp only
    split
    · exact hd
    · exact { hd with }

end Edit

end Download

/-- **Every amendment of a lawful download is lawful.** -/
theorem Invocation.Amends.lawful {inv : Invocation} {id : DownloadId} {f : Download → Download}
    (h : inv.Amends id f) {d : Download} (hd : d.Lawful) : (f d).Lawful := by
  cases h with
  | setInt setting n => exact Download.Edit.keeps_lawful_setInt n setting d hd
  | setText setting s => exact Download.Edit.keeps_lawful_setText s setting d hd
  | act action => exact Download.Edit.keeps_lawful_act action d hd
  | list name operation args =>
    exact Download.Edit.keeps_list Download.lawful_withState name args operation d hd
  | setCustom key text => exact Download.Edit.keeps_onSection Download.lawful_withState _ d hd
  | setPriority ref priority => exact { hd with }
  | setEnabled ref isEnabled => exact { hd with }

/-! ## Downloads as they are described -/

namespace DownloadManifest

open Download Download.Edit

variable {m : DownloadManifest} {d : Download}

/-- Seeding writes nothing but the state. -/
theorem keeps_seed {I : Download → Prop} (h : ∀ d state, I d → I { d with state })
    (m : DownloadManifest) : m.seed.Keeps I := by
  unfold seed
  dsimp only
  split
  · exact (keeps_onSection h _).bind fun _ =>
      (keeps_onSection h _).bind fun _ => keeps_onSection h _
  · exact (keeps_onSection h _).bind fun _ => keeps_onSection h _

theorem exists_layOut_of_build (h : m.build = .ok d) :
    ∃ said, m.Says said ∧ d = m.seed.after (m.layOut said) := by
  obtain ⟨said, hsaid, hseed⟩ := build_eq_ok_iff.1 h
  exact ⟨said, hsaid, (congrArg Prod.snd hseed).symm⟩

/-- **What a manifest builds is lawful.** -/
theorem lawful_of_build (h : m.build = .ok d) : d.Lawful := by
  obtain ⟨said, -, rfl⟩ := exists_layOut_of_build h
  refine keeps_seed lawful_withState m _ ?_
  exact {
    isOpen := id
    peersMin := show 0 ≤ (40 : Int64).toInt by decide
    peersMax := show 0 ≤ (100 : Int64).toInt by decide
    uploadsMax := show 0 ≤ (15 : Int64).toInt by decide
    maxFileSize := show 0 ≤ (0 : Int64).toInt by decide
    alone := fun _ => rfl
    addresses := nofun }

/-- What identifies the download is what the description says of it. -/
structure Describes (m : DownloadManifest) (i : Identity) : Prop where
  name : i.name = m.name
  infoHash : Digest.ofHex? m.hash = some i.infoHash
  localId : m.localId.elim (some .zero) Digest.ofHex? = some i.localId
  isPrivate : i.isPrivate = m.isPrivate
  isMultiFile : i.isMultiFile = m.isMultiFile
  peers : (m.peers.mapM fun peer => peer.build m.name) = .ok i.peers
  bitfield : m.bitfield.elim (some []) Text.Hex.decode = some i.bitfield
  files : i.files = m.files.map fun file => ((File.ofPath file.path file.size).path, file.size)
  trackers : i.trackers = m.trackers.map TrackerManifest.url

/-- **A manifest describes what it builds.** -/
theorem describes_of_build (h : m.build = .ok d) : m.Describes d.identity := by
  obtain ⟨said, hsaid, rfl⟩ := exists_layOut_of_build h
  have hseed : m.seed.Spares identity :=
    spares_of_keeps (fun _ _ => rfl) fun _ hI => keeps_seed hI m
  rw [hseed]
  exact {
    name := rfl
    infoHash := hsaid.infoHash
    localId := hsaid.localId
    isPrivate := rfl
    isMultiFile := rfl
    peers := hsaid.peers
    bitfield := hsaid.bitfield
    files := List.map_map ..
    trackers := List.map_map .. }

end DownloadManifest

/-! ## Runs -/

/-- A call of the command that queues an address queues it, if it is one that waits already. -/
theorem Engine.run_queue {e : Engine} {key : String} {entry : CommandEntry}
    (hentry : e.commands.find? key = some entry)
    (hcallable : entry.callable = .download (.setText .addedPeer)) {id : DownloadId} {d : Download}
    (hd : e.session.get? id = some d) (hpublic : d.isPrivate = false) {peer : String}
    (hpeer : Download.IsPeerAddress peer) (hops left : Nat) :
    e.run ((Job.call key (.download id) (.text peer)).run hops left) =
      (.ok .empty, { e with
        session := e.session.replace id { d with pendingPeers := d.pendingPeers ++ [peer] } }) := by
  have hadd := Run.run_onDownload e id (Download.Edit.addPeer peer)
  simp only [hd, Download.Edit.after, Download.run_addPeer hpeer hpublic] at hadd
  rw [run_call hentry hcallable]
  change e.run (Run.onDownload id (Download.Edit.addPeer peer) >>= fun _ => pure Value.empty) = _
  rw [run_bind_ok e hadd]
  rfl

/-- What identifies the downloads is retained by every run. -/
theorem Engine.retains_acts {start : Session} (inv : Invocation) (e f : Engine)
    (h : start.Retains Download.identity e.session) (hact : e.Act inv f) :
    start.Retains Download.identity f.session := by
  cases hact with
  | amended hinv hd =>
    exact h.trans ((Session.replaces hd _).retains hd (hinv.identity _))
  | removed _ hremove =>
    obtain ⟨hd, hvacates⟩ := Session.vacates_of_remove hremove
    exact h.trans (hvacates.retains hd)
  | _ => exact h

/-- The download of a handle is lawful; a key that queues addresses would queue each of those that
wait again, unchanged; and a description of the manifest, which built the download that the handle
named at first, says what identifies it still. -/
structure Engine.Upholds (e : Engine) (m : SessionManifest) (start : Session) (id : DownloadId)
    (d : Download) : Prop where
  lawful : d.Lawful
  queues : ∀ peer ∈ d.pendingPeers, ∀ key entry, e.commands.find? key = some entry →
    entry.callable = .download (.setText .addedPeer) → ∀ hops left,
      e.run ((Job.call key (.download id) (.text peer)).run hops left) =
        (.ok .empty, { e with
          session := e.session.replace id { d with pendingPeers := d.pendingPeers ++ [peer] } })
  described : ∃ described ∈ m.downloads, ∃ first, described.build = .ok first ∧
    start.get? id = some first ∧ d.identity = first.identity ∧ described.Describes d.identity

/-- **What lasts of a download, whatever commands are run.** On every engine that commands make of a
session that was built from a manifest, and in the middle of them, each download is lawful, would
queue the addresses that wait for it again, and is identified by what the manifest says. -/
theorem Engine.downloads_stay_lawful_and_described {m : SessionManifest} {session : Session}
    (hbuild : m.build = .ok session) (disk : Disk) (jobs : List Job) {job : Job} {u : Task}
    (hu : Task.Leads ⟨(withBuiltins session disk).after jobs, scriptLimit, job⟩ u)
    {id : DownloadId} {d : Download} (hd : u.engine.session.get? id = some d) :
    u.engine.Upholds m session id d := by
  have hlawful : d.Lawful := by
    have hkeeps (callable : Callable) (_ : True) : callable.Keeps Download.Lawful :=
      fun _ _ _ _ hinv _ hd => hinv.lawful hd
    have hstart : session.Holds Download.Lawful :=
      SessionManifest.holds_of_build hbuild fun _ _ _ => DownloadManifest.lawful_of_build
    have hafter := (maintains_withBuiltins (C := fun _ => True) disk hstart
      fun _ _ => trivial).after (fun _ => trivial) hkeeps jobs
    exact (hu.maintains (fun _ => trivial) hkeeps hafter).downloads.get? hd
  constructor
  case lawful => exact hlawful
  case queues =>
    intro peer hpeer key entry hentry hcallable hops left
    have hpublic : d.isPrivate = false := by
      by_contra hprivate
      rw [hlawful.alone (by simpa using hprivate)] at hpeer
      cases hpeer
    exact run_queue hentry hcallable hd hpublic (hlawful.addresses peer hpeer) hops left
  case described =>
    have hretains : session.Retains Download.identity u.engine.session :=
      hu.acts_keep retains_acts (after_acts_keep retains_acts (Session.retains_self session) jobs)
    have hbuilt : session.Holds fun d => ∃ described ∈ m.downloads, described.build = .ok d :=
      SessionManifest.holds_of_build hbuild fun described hmem _ hbuilds =>
        ⟨described, hmem, hbuilds⟩
    obtain ⟨first, hfirst, hsame⟩ := hretains id d hd
    obtain ⟨described, hmem, hbuilds⟩ := hbuilt.get? hfirst
    have hdescribes := DownloadManifest.describes_of_build hbuilds
    exact ⟨described, hmem, first, hbuilds, hfirst, hsame, hsame ▸ hdescribes⟩

theorem Engine.get?_after_queue {e : Engine} (hintact : e.commands.Intact) {id : DownloadId}
    {d : Download} (hd : e.session.get? id = some d) (hpublic : d.isPrivate = false) {peer : String}
    (hpeer : Download.IsPeerAddress peer) :
    (e.after [.call "d.add_peer" (.download id) (.text peer)]).session.get? id =
      some { d with pendingPeers := d.pendingPeers ++ [peer] } := by
  have hadds : Builtin.setText "d.add_peer" .addedPeer ∈ Builtin.all := by
    simp [Builtin.all, Builtin.lifecycle]
  obtain ⟨entry, hentry, hcallable⟩ := hintact _ hadds
  have hrun : e.run ((Job.call "d.add_peer" (.download id) (.text peer)).run hopLimit scriptLimit) =
      _ := run_queue hentry hcallable hd hpublic hpeer hopLimit scriptLimit
  simp only [after, List.foldl_cons, List.foldl_nil, hrun]
  rw [(Session.replaces hd _).get? hd, if_pos rfl]

/-- An address that was queued for the download of the manifest. -/
theorem Engine.queued_address_lasts : ∃ session u d,
    SessionManifest.started.build = .ok session ∧
      Task.Leads ⟨(withBuiltins session .empty).after
          [.call "d.add_peer" (.download ⟨0, 0⟩) (.text "10.0.0.1:6881")],
        scriptLimit, .execute .generic "download_list"⟩ u ∧
      u.engine.session.get? ⟨0, 0⟩ = some d ∧ d.pendingPeers = ["10.0.0.1:6881"] ∧
      u.engine.Upholds .started session ⟨0, 0⟩ d := by
  have hbuilds : (match SessionManifest.started.build with
      | .ok session => (session.get? ⟨0, 0⟩).any fun d => !d.isPrivate && d.pendingPeers.isEmpty
      | .error _ => false) = true := by decide +kernel
  cases hbuild : SessionManifest.started.build with
  | error c =>
    rw [hbuild] at hbuilds
    cases hbuilds
  | ok session =>
    rw [hbuild] at hbuilds
    obtain ⟨d, hd, hfresh⟩ := (Option.any_eq_true _ _).1 hbuilds
    simp only [Bool.and_eq_true, Bool.not_eq_true', List.isEmpty_iff] at hfresh
    have haddress : Download.IsPeerAddress "10.0.0.1:6881" :=
      ⟨"10.0.0.1", 6881, by decide, by decide, by decide, by decide +kernel⟩
    have hqueued := get?_after_queue (intact_withBuiltins session .empty) hd hfresh.1 haddress
    rw [hfresh.2] at hqueued
    have hreached (e : Engine) (job : Job) : Task.Leads ⟨e, scriptLimit, job⟩ ⟨e, scriptLimit, job⟩ :=
      .refl
    exact ⟨session, _, _, rfl, hreached _ _, hqueued, rfl,
      downloads_stay_lawful_and_described hbuild .empty _ (hreached _ _) hqueued⟩

end TorrentControl
