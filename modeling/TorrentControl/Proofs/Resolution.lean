import TorrentControl.Proofs.Hashes
import TorrentControl.Proofs.Serving
import TorrentControl.Proofs.Visibility

/-! # Requests find downloads by their hashes

The target of a request names downloads by texts. A text names the download whose hash it spells in
hexadecimal digits, whatever their letter case, and else it names nothing. This stays exact while
requests are handled: a download keeps its hash and its handle until it is removed, and a removed
download leaves its hash to nobody. -/

namespace TorrentControl.Rpc

namespace TargetSpec

/-! ## What a target means -/

/-- The texts that name downloads, in the order in which they are looked up. -/
def hashes : TargetSpec → List String
  | .generic => []
  | .download hash | .file hash _ | .fileCursor hash _ | .peer hash _ | .tracker hash _ => [hash]
  | .downloadPair first second => [first, second]

/-- What is meant where texts name downloads. -/
def Means (names : String → DownloadId → Prop) : TargetSpec → Target → Prop
  | .generic, target => target = .generic
  | .download hash, target => ∃ id, names hash id ∧ target = .download id
  | .file hash index, target => ∃ id, names hash id ∧ target = .file ⟨id, index⟩
  | .fileCursor hash position, target =>
    ∃ id, names hash id ∧ target = .entity (.cursor ⟨id, position⟩)
  | .peer hash index, target => ∃ id, names hash id ∧ target = .peer ⟨id, index⟩
  | .tracker hash index, target => ∃ id, names hash id ∧ target = .tracker ⟨id, index⟩
  | .downloadPair first second, target =>
    ∃ id other, names first id ∧ names second other ∧ target = .pair id other

/-- The text is the first one of the list that names no download. -/
def FirstUnknown (names : String → DownloadId → Prop) : List String → String → Prop
  | [], _ => False
  | known :: rest, text => ((∀ id, ¬ names known id) ∧ text = known) ∨
    ((∃ id, names known id) ∧ FirstUnknown names rest text)

variable {s : Session}

section Lookup

variable (h : s.Keyed) {text : String} {make : DownloadId → Except Failure Target}

include h

/-- What goes on with a download goes on with the one that is named. -/
theorem findDownload_bind_ok_iff {target : Target} :
    (findDownload s text >>= make) = .ok target ↔
      ∃ id, s.Names text id ∧ make id = .ok target := by
  simp only [← h.findByHex?_eq_some_iff, findDownload]
  cases s.findByHex? text with
  | none => exact ⟨nofun, nofun⟩
  | some id => exact ⟨fun hmake => ⟨id, rfl, hmake⟩, fun ⟨_, hid, hmake⟩ => by cases hid; exact hmake⟩

theorem findDownload_bind_error_iff {f : Failure} :
    (findDownload s text >>= make) = .error f ↔
      ((∀ id, ¬ s.Names text id) ∧ f = .unknownDownload text) ∨
        ∃ id, s.Names text id ∧ make id = .error f := by
  simp only [← h.findByHex?_eq_some_iff, findDownload]
  cases s.findByHex? text with
  | none =>
    constructor
    · rintro ⟨⟩
      exact .inl ⟨nofun, rfl⟩
    · rintro (⟨-, rfl⟩ | ⟨_, ⟨⟩, _⟩)
      rfl
  | some id =>
    constructor
    · exact fun hmake => .inr ⟨id, rfl, hmake⟩
    · rintro (⟨hnone, -⟩ | ⟨_, ⟨⟩, hmake⟩)
      · exact (hnone id rfl).elim
      · exact hmake

end Lookup

/-- **A target resolves to what it means.** -/
theorem resolve_eq_ok_iff (h : s.Keyed) {spec : TargetSpec} {target : Target} :
    spec.resolve s = .ok target ↔ spec.Means s.Names target := by
  cases spec <;> simp [resolve, Means, findDownload_bind_ok_iff h, pure, Except.pure, eq_comm]

/-- **A target does not resolve exactly if one of its texts names nothing.** -/
theorem resolve_eq_error_iff (h : s.Keyed) {spec : TargetSpec} {f : Failure} :
    spec.resolve s = .error f ↔
      ∃ text, FirstUnknown s.Names spec.hashes text ∧ f = .unknownDownload text := by
  cases spec <;>
    simp [resolve, hashes, FirstUnknown, findDownload_bind_error_iff h, pure, Except.pure,
      or_and_right, exists_or, and_assoc]

end TargetSpec

namespace Reactor

/-! ## Runs of the reactor -/

variable {start : Session} {r : Reactor}

theorem remains_after (h : start.Remains r.engine.session) (requests : List Request) :
    start.Remains (r.after requests).engine.session :=
  after_keeps (P := fun e => start.Remains e.session) (fun _ _ h => h) h
    fun _ _ _ _ _ _ hengine => hengine.run _ hopLimit _

/-- The session of the reactor is the one that it was started on. -/
theorem keyed_after {m : SessionManifest} {session : Session} (hbuild : m.build = .ok session)
    (disk : Disk) (requests : List Request) :
    ((Reactor.start session disk).after requests).engine.session.Keyed := by
  have hkeyed : (Reactor.start session disk).engine.session.Keyed := Session.keyed_of_build hbuild
  exact (remains_after hkeyed.remains requests).keyed

/-! ## Requests that name nothing -/

/-- A request whose target does not resolve changes nothing. -/
theorem handle_unresolved {request : Request} {f : Failure}
    (h : request.target.resolve r.engine.session = .error f) : (r.handle request).2 = r := by
  rcases handle_cases r request with hsame | ⟨task, hstart, -⟩
  · exact hsame
  · obtain ⟨-, -, htarget⟩ := hstart
    cases h.symm.trans htarget

/-- If its method is a public command, it is answered why. -/
theorem Settled.handle_unresolved (hsettled : Settled r) {request : Request} {f : Failure}
    (h : request.target.resolve r.engine.session = .error f)
    (hpublic : request.method ∈ r.engine.commands.publicKeys)
    (hsystem : request.method ∉ systemMethods) : (r.handle request).1 = .error f := by
  rw [handle_eq_call hsystem, call, if_pos (hsettled.contains_iff.2 hpublic), h]

/-! ## Hashes that are read -/

/-- The command that reads the hash answers a text that names the download. -/
theorem call_hash {e : Engine} {key : String} {entry : CommandEntry}
    (hentry : e.commands.find? key = some entry)
    (hcallable : entry.callable = .download (.read .hash)) {id : DownloadId} {d : Download}
    (hd : e.session.get? id = some d) (args : Value) :
    ∃ text, e.call key (.download id) args = (.ok (.text text), e) ∧ e.session.Names text id := by
  refine ⟨d.hashText, ?_, d, hd, d.infoHash.spelledBy_toHex .upper⟩
  have hcall := Engine.run_call hentry hcallable id args hopLimit scriptLimit
  rw [show e.call key (.download id) args = _ from hcall]
  change e.run (Run.download id >>= fun d => Run.lift (.ok (Value.text d.hashText)) >>= pure) = _
  rw [Engine.run_bind_ok e (Engine.run_download_of_get? hd)]
  rfl

/-! ## Every state -/

/-- Targets are found by the hashes of the downloads, and by nothing else. -/
structure FindsByHash (r : Reactor) : Prop where
  apart : ∀ id other d c, r.engine.session.get? id = some d →
    r.engine.session.get? other = some c → d.infoHash = c.infoHash → id = other
  /-- A download answers for its hash one of the texts that name it. -/
  answered : ∀ key entry id d args, r.engine.commands.find? key = some entry →
    entry.callable = .download (.read .hash) → r.engine.session.get? id = some d →
      ∃ text, r.engine.call key (.download id) args = (.ok (.text text), r.engine) ∧
        r.engine.session.Names text id
  resolves : ∀ (spec : TargetSpec) target, spec.resolve r.engine.session = .ok target ↔
    spec.Means r.engine.session.Names target
  refuses : ∀ (spec : TargetSpec) failure, spec.resolve r.engine.session = .error failure ↔
    ∃ text, TargetSpec.FirstUnknown r.engine.session.Names spec.hashes text ∧
      failure = .unknownDownload text
  /-- Whatever the method of a request is. -/
  unchanged : ∀ request failure, request.target.resolve r.engine.session = .error failure →
    (r.handle request).2 = r ∧ (request.method ∈ r.engine.commands.publicKeys →
      request.method ∉ systemMethods → (r.handle request).1 = .error failure)

theorem Settled.findsByHash (hsettled : Settled r) (hkeyed : r.engine.session.Keyed) :
    r.FindsByHash where
  apart _ _ _ _ hd hc hhash := hkeyed.apart hd hc hhash
  answered _ _ _ _ args hentry hcallable hd := call_hash hentry hcallable hd args
  resolves _ _ := TargetSpec.resolve_eq_ok_iff hkeyed
  refuses _ _ := TargetSpec.resolve_eq_error_iff hkeyed
  unchanged _ _ h := ⟨Reactor.handle_unresolved h, hsettled.handle_unresolved h⟩

/-- **After any requests on the session of a manifest, targets are found by the hashes of the
downloads and by nothing else.** Between two states a download keeps its hash and its handle, and the
texts that named a download that was removed name nothing. -/
theorem finds_by_hash_after_requests {m : SessionManifest} {session : Session}
    (hbuild : m.build = .ok session) (disk : Disk) (requests later : List Request) :
    let before := (Reactor.start session disk).after requests
    let r := before.after later
    r.FindsByHash ∧
      (∀ id d, r.engine.session.get? id = some d →
        ∃ old, before.engine.session.get? id = some old ∧ d.infoHash = old.infoHash) ∧
      ∀ id d text, before.engine.session.get? id = some d → r.engine.session.get? id = none →
        d.infoHash.SpelledBy text → ∀ other, ¬ r.engine.session.Names text other := by
  intro before r
  have hbefore : before.engine.session.Keyed := keyed_after hbuild disk requests
  have hremains : before.engine.session.Remains r.engine.session :=
    remains_after hbefore.remains later
  have hsettled : Settled r := ((settled_start session disk).after requests).after later
  exact ⟨hsettled.findsByHash hremains.keyed, fun _ _ hd => hremains.hash hd,
    fun _ _ _ hd hgone hspelled => hremains.not_names hbefore hd hgone hspelled⟩

/-- Two downloads. -/
def twoDownloads : SessionManifest where
  downloads := SessionManifest.started.downloads.flatMap fun described =>
    [described, { described with
      name := "b"
      hash := "2B2B2B2B2B2B2B2B2B2B2B2B2B2B2B2B2B2B2B2B" }]

/-- One of two downloads is removed. -/
theorem finds_by_hash_after_erasure : ∃ session, twoDownloads.build = .ok session ∧
    let before := (Reactor.start session .empty).after []
    let r := before.after
      [⟨"d.erase", .download "2a2a2a2a2a2a2a2a2a2a2a2a2a2a2a2a2a2a2a2a", .empty⟩]
    r.FindsByHash ∧
      (∀ id d, r.engine.session.get? id = some d →
        ∃ old, before.engine.session.get? id = some old ∧ d.infoHash = old.infoHash) ∧
      ∀ id d text, before.engine.session.get? id = some d → r.engine.session.get? id = none →
        d.infoHash.SpelledBy text → ∀ other, ¬ r.engine.session.Names text other := by
  have hbuilds : twoDownloads.build.toBool = true := by decide +kernel
  cases hbuild : twoDownloads.build with
  | error c =>
    rw [hbuild] at hbuilds
    cases hbuilds
  | ok session => exact ⟨session, rfl, finds_by_hash_after_requests hbuild .empty [] _⟩

end Reactor

end TorrentControl.Rpc
