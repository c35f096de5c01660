import TorrentControl.Proofs.Task

/-! # Where value errors come from

A value error says that a value is not of the kind that was asked for. Where every task that a job
leads to blames a set of causes for the value errors of its own actions, so does the job for all of
its value errors, however deep in scripts and multicalls they arise. -/

namespace TorrentControl

/-! ## Arguments -/

/-- The value is the arguments or an item of them. -/
def Value.Offers (args v : Value) : Prop :=
  v = args ∨ ∃ items, args = .list items ∧ v ∈ items

/-- The error says that the arguments, or an item of them, are not of some kind. -/
def Value.Blamed (args : Value) (error : ValueError) : Prop :=
  ∃ v kind, args.Offers v ∧ error = v.mismatch kind

namespace Value

variable {args : Value} {error : ValueError}

theorem offers_argument (args : Value) : args.Offers args.argument := by
  unfold argument
  split
  · exact .inr ⟨_, rfl, .head _⟩
  · exact .inl rfl

theorem offers_of_mem {items : List Value} (h : positional args = items) {v : Value}
    (hv : v ∈ items) : args.Offers v := by
  subst h
  unfold positional at hv
  split at hv
  · exact .inr ⟨_, rfl, hv⟩
  · exact .inl (List.mem_singleton.1 hv)

theorem blamed_asText {v : Value} (hv : args.Offers v)
    (h : TorrentControl.asText v = .error (.value error)) : args.Blamed error := by
  unfold TorrentControl.asText asText at h
  split at h
  · cases h
  · cases h
    exact ⟨_, _, hv, rfl⟩

theorem blamed_innerText {v : Value} {htexts : ∀ text, v = .text text → args.Says text}
    (hv : args.Offers v) (h : InnerText.ofValue v htexts = .error (.value error)) :
    args.Blamed error := by
  unfold InnerText.ofValue at h
  split at h
  · cases h
  · cases h
    exact ⟨_, _, hv, rfl⟩

theorem blamed_intArgument (h : args.asIntArgument = .error (.value error)) :
    args.Blamed error := by
  have hoffered := offers_argument args
  unfold asIntArgument at h
  generalize args.argument = argument at h hoffered
  cases argument with
  | int n => cases h
  | text s =>
    dsimp only at h
    split at h <;> cases h
  | empty => cases h
  | _ =>
    cases h
    exact ⟨_, _, hoffered, rfl⟩

theorem blamed_textArgument (h : args.asTextArgument = .error (.value error)) :
    args.Blamed error := by
  have hoffered := offers_argument args
  unfold asTextArgument at h
  generalize args.argument = argument at h hoffered
  cases argument with
  | text s | int n | empty => cases h
  | _ =>
    cases h
    exact ⟨_, _, hoffered, rfl⟩

theorem blamed_customArguments (h : customArguments args = .error (.value error)) :
    args.Blamed error := by
  cases args with
  | list items =>
    cases items with
    | nil => cases h
    | cons key rest =>
      cases key with
      | text key =>
        cases rest with
        | nil => cases h
        | cons text rest =>
          cases text with
          | text text => cases h
          | _ =>
            cases h
            exact ⟨_, _, .inr ⟨_, rfl, .tail _ (.head _)⟩, rfl⟩
      | _ =>
        cases h
        exact ⟨_, _, .inr ⟨_, rfl, .head _⟩, rfl⟩
  | _ =>
    cases h
    exact ⟨_, _, .inl rfl, rfl⟩

theorem blamed_filePriority (h : filePriority args = .error (.value error)) :
    args.Blamed error := by
  cases hn : args.asIntArgument with
  | error c =>
    rw [filePriority, hn] at h
    cases h
    exact blamed_intArgument hn
  | ok n =>
    rw [filePriority, hn] at h
    simp only [bind, Except.bind] at h
    split at h <;> cases h

theorem blamed_comparisonText (h : comparisonText args = .error (.value error)) :
    args.Blamed error := by
  unfold comparisonText at h
  cases hinner : InnerText.ofValue args.argument fun _ => says_argument with
  | error c =>
    rw [hinner] at h
    cases h
    exact blamed_innerText (offers_argument args) hinner
  | ok inner =>
    rw [hinner] at h
    simp only [bind, Except.bind] at h
    split at h <;> cases h

theorem blamed_multicallColumns (h : multicallColumns args = .error (.value error)) :
    args.Blamed error := by
  unfold multicallColumns at h
  split at h
  · cases h
  · cases h
  · cases h
    exact ⟨_, _, .inl rfl, rfl⟩

/-- Each column of a multicall is one of the arguments. -/
theorem blamed_column {columns : List (Except CommandError (InnerText args))}
    (h : multicallColumns args = .ok columns) {column : Except CommandError (InnerText args)}
    (hcolumn : column ∈ columns) (herror : column = .error (.value error)) :
    args.Blamed error := by
  unfold multicallColumns at h
  split at h
  · cases h
    obtain ⟨⟨v, hv⟩, -, rfl⟩ := List.mem_map.1 hcolumn
    exact blamed_innerText (.inr ⟨_, rfl, .tail _ hv⟩) herror
  · cases h
  · cases h

end Value

/-! ## Lookups that blame nothing -/

namespace Session

variable {s : Session} {error : ValueError}

theorem download_ne_value {id : DownloadId} : s.download id ≠ .error (.value error) := by
  unfold download
  split <;> nofun

/-- What is looked up in a download. -/
theorem download_bind_ne_value {α : Type} {id : DownloadId} {f : Download → Except CommandError α}
    (hf : ∀ d, f d ≠ .error (.value error)) : (s.download id >>= f) ≠ .error (.value error) := by
  cases h : s.download id with
  | error c =>
    rintro ⟨⟩
    exact download_ne_value h
  | ok d => exact hf d

theorem file_ne_value {ref : FileRef} : s.file ref ≠ .error (.value error) := by
  unfold file
  refine download_bind_ne_value fun d => ?_
  split <;> nofun

theorem peer_ne_value {ref : PeerRef} : s.peer ref ≠ .error (.value error) := by
  unfold peer
  refine download_bind_ne_value fun d => ?_
  split <;> nofun

theorem tracker_ne_value {ref : TrackerRef} : s.tracker ref ≠ .error (.value error) := by
  unfold tracker
  refine download_bind_ne_value fun d => ?_
  split <;> nofun

end Session

theorem readModifiers_ne_value {error : ValueError} (isPublic : Bool) (modifiers : List String) :
    readModifiers isPublic modifiers ≠ .error (.value error) := by
  induction modifiers generalizing isPublic with
  | nil => nofun
  | cons modifier rest ih =>
    unfold readModifiers
    split
    · exact ih true
    · split
      · exact ih false
      · nofun

theorem readMethodKind_ne_value {error : ValueError} {kind : String} :
    readMethodKind kind ≠ .error (.value error) := by
  unfold readMethodKind
  split
  · exact readModifiers_ne_value _ _
  · nofun

/-! ## Actions -/

/-- From the engine, the action fails for no value errors but those of the set. -/
def Run.Blames {α : Type} (A : ValueError → Prop) (m : Run α) (e : Engine) : Prop :=
  ∀ error, (e.run m).1 = .error (.failed (.value error)) → A error

namespace Run

variable {α β : Type} {e : Engine} {A B : ValueError → Prop}

theorem Blames.mono {m : Run α} (h : m.Blames A e) (hAB : ∀ error, A error → B error) :
    m.Blames B e :=
  fun error herror => hAB error (h error herror)

theorem Blames.bind {m : Run α} {f : α → Run β} (hm : m.Blames A e)
    (hf : ∀ a t, e.run m = (.ok a, t) → (f a).Blames A t) : (m >>= f).Blames A e := by
  intro error h
  rcases hrun : e.run m with ⟨c | a, t⟩
  · rw [Engine.run_bind_error e hrun] at h
    refine hm error ?_
    rw [hrun]
    cases h
    rfl
  · rw [Engine.run_bind_ok e hrun] at h
    exact hf a t hrun error h

theorem blames_pure (a : α) : (pure a : Run α).Blames A e :=
  nofun

theorem blames_session : session.Blames A e :=
  nofun

theorem blames_lift {x : Except CommandError α} (h : ∀ error, x = .error (.value error) → A error) :
    (lift x).Blames A e := by
  intro error hrun
  rw [Engine.run_lift] at hrun
  cases x with
  | ok a => cases hrun
  | error c =>
    cases hrun
    exact h error rfl

theorem blames_fail {c : CommandError} (h : ∀ error, c ≠ .value error) :
    (fail c : Run α).Blames A e :=
  blames_lift (x := .error c) fun error herror => (h error (Except.error.inj herror)).elim

theorem blames_download (id : DownloadId) : (download id).Blames A e := by
  exact blames_session.bind fun s t _ => blames_lift fun error h =>
    (Session.download_ne_value h).elim

end Run

/-! ## Plans -/

namespace Plan

variable {R R' α β : Type} {returns : R → Engine → Value → Engine → Prop} {e : Engine}
  {A B : ValueError → Prop}

/-- From the engine, the acts the plan gets to fail for no value errors but those of the set. -/
def Blames (returns : R → Engine → Value → Engine → Prop) (A : ValueError → Prop) :
    Plan R α → Engine → Prop
  | .answer _, _ => True
  | .act m next, e => m.Blames A e ∧ ∀ b s, e.run m = (.ok b, s) → (next b).Blames returns A s
  | .ask r next, e => ∀ v s, returns r e v s → (next v).Blames returns A s

theorem blames_pure (a : α) : (pure a : Plan R α).Blames returns A e :=
  trivial

theorem blames_lift {m : Run α} (h : m.Blames A e) : (liftM m : Plan R α).Blames returns A e :=
  ⟨h, fun _ _ _ => trivial⟩

theorem blames_act {m : Run β} {f : β → Plan R α} (hm : m.Blames A e)
    (hf : ∀ b s, e.run m = (.ok b, s) → (f b).Blames returns A s) :
    (liftM m >>= f).Blames returns A e :=
  ⟨hm, hf⟩

theorem blames_ask {r : R} {f : Value → Plan R α}
    (hf : ∀ v s, returns r e v s → (f v).Blames returns A s) :
    (request r >>= f).Blames returns A e :=
  hf

theorem blames_request (r : R) : (request r).Blames returns A e :=
  fun _ _ _ => trivial

theorem Blames.bind {f : α → Plan R β} (hf : ∀ a t, (f a).Blames returns A t) :
    ∀ {p : Plan R α} {e : Engine}, p.Blames returns A e → (p >>= f).Blames returns A e
  | .answer a, _, _ => hf a _
  | .act _ _, _, h => ⟨h.1, fun b s hb => bind hf (h.2 b s hb)⟩
  | .ask _ _, _, h => fun v s hv => bind hf (h v s hv)

theorem blames_mapM {f : α → Plan R β} {l : List α}
    (hf : ∀ a ∈ l, ∀ t, (f a).Blames returns A t) (e : Engine) :
    (l.mapM f).Blames returns A e := by
  induction l generalizing e with
  | nil => trivial
  | cons a l ih =>
    rw [List.mapM_cons]
    refine Blames.bind (fun b t => ?_) (hf a (.head _) e)
    exact Blames.bind (fun _ _ => blames_pure _) (ih (fun c hc => hf c (.tail _ hc)) t)

theorem blames_rename {returns : R' → Engine → Value → Engine → Prop} (f : R → R') :
    ∀ {p : Plan R α} {e : Engine}, p.Blames (fun r => returns (f r)) A e →
      (p.rename f).Blames returns A e
  | .answer _, _, _ => trivial
  | .act _ _, _, h => ⟨h.1, fun b s hb => blames_rename f (h.2 b s hb)⟩
  | .ask _ _, _, h => fun v s hv => blames_rename f (h v s hv)

theorem Blames.mono (hAB : ∀ error, A error → B error) :
    ∀ {p : Plan R α} {e : Engine}, p.Blames returns A e → p.Blames returns B e
  | .answer _, _, _ => trivial
  | .act _ _, _, h => ⟨h.1.mono hAB, fun b s hb => (h.2 b s hb).mono hAB⟩
  | .ask _ _, _, h => fun v s hv => (h v s hv).mono hAB

/-- A plan whose acts blame nothing but the set on any engine blames nothing else. -/
theorem Every.blames {Q : R → Prop} :
    ∀ {p : Plan R α} {e : Engine}, p.Every (fun m => ∀ e, m.Blames A e) Q → p.Blames returns A e
  | .answer _, _, _ => trivial
  | .act _ _, e, h => ⟨h.1 e, fun b _ _ => (h.2 b).blames⟩
  | .ask _ _, _, h => fun v _ _ => (h.2 v).blames

/-- A plan is run with the blames of its own acts and of the runs that it gets to. -/
theorem run_blames {f : Nat → R → Run Value} {n : Nat} :
    ∀ {p : Plan R α} {e : Engine}, p.Blames (Returns f) A e →
      (∀ q s, p.Reaches (Returns f) e q s → (f n q).Blames A s) → (p.run (f n)).Blames A e
  | .answer _, _, _, _ => Run.blames_pure _
  | .act _ _, _, h, hq => h.1.bind fun b s hb =>
    run_blames (h.2 b s hb) fun q t ht => hq q t ⟨b, s, hb, ht⟩
  | .ask q _, e, h, hq => (hq q e (.inl ⟨rfl, rfl⟩)).bind fun v s hv =>
    run_blames (h v s ⟨n, hv⟩) fun r t ht => hq r t (.inr ⟨v, s, ⟨n, hv⟩, ht⟩)

end Plan

/-! ## Jobs -/

/-- **A job fails for no value errors but those that the tasks blame that it leads to.** -/
theorem Task.run_blames {A : ValueError → Prop} (hops : Nat) (t : Task)
    (h : ∀ u, t.Leads u → u.plan.Blames (Plan.Returns Sending.run) A u.engine) :
    (t.job.run hops t.left).Blames A t.engine := by
  induction hops, t using Task.run_induction with
  | step hops t opens orders =>
    intro error hrun
    rw [run_eq] at hrun
    refine Plan.run_blames (h t .refl) (fun s e hs => ?_) error hrun
    cases s with
    | inner left job =>
      have hopens : t.Opens ⟨e, left, job⟩ := hs
      exact opens _ hopens fun u hu => h u (.head (.inl hopens) hu)
    | order left key target params =>
      cases hops with
      | zero => exact nofun
      | succ hops =>
        have horders : t.Orders ⟨e, left, .call key target params⟩ := ⟨_, _, _, rfl, hs⟩
        exact orders _ horders hops rfl fun u hu => h u (.head (.inr horders) hu)

end TorrentControl
