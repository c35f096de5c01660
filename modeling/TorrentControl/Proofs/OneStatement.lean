import TorrentControl.Proofs.Nesting
import TorrentControl.Proofs.Statement.Trimming
import TorrentControl.Proofs.Statement.Writing
import TorrentControl.Proofs.Termination

/-! # Scripts of one statement

A script without a semicolon is a single statement, and running it should be executing that statement.
It is, where the cut of the script accepts the text. The cut counts every quote and every brace, those
within bare words too, and there it can refuse what is a statement. -/

namespace TorrentControl

/-! ## One piece -/

namespace Script

/-- Without a semicolon all of the text is in one piece. -/
theorem cut_of_no_semicolon : ∀ {cs : List Char} {depth : Nat} {mode : Mode}
    {pieces : List (List Char)}, ';' ∉ cs → cut depth mode cs = .ok pieces → pieces = [cs]
  | [], depth, mode, pieces, _, h => by
    rw [cut] at h
    split at h
    · cases h
    · split at h
      · cases h
      · exact (Except.ok.inj h).symm
  | c :: cs, depth, mode, pieces, hno, h => by
    rw [List.mem_cons, not_or] at hno
    have attached {depth' : Nat} {mode' : Mode} {pieces : List (List Char)}
        (h : attach c <$> cut depth' mode' cs = .ok pieces) : pieces = [c :: cs] := by
      cases hcut : cut depth' mode' cs with
      | error fault =>
        rw [hcut] at h
        cases h
      | ok rest =>
        rw [hcut, cut_of_no_semicolon hno.2 hcut] at h
        exact (Except.ok.inj h).symm
    cases mode with
    | escaped => exact attached h
    | quoted => exact attached h
    | plain =>
      simp only [cut] at h
      split at h
      · exact attached h
      · split at h
        · exact attached h
        · split at h
          · split at h
            · cases h
            · exact attached h
          · split at h
            · rename_i hend
              exact (hno.1 hend.1.symm).elim
            · exact attached h

theorem split_of_no_semicolon {text : String} {statements : List String} (hno : ';' ∉ text.toList)
    (h : split text = .ok statements) : statements = [Text.trim text] := by
  rw [split] at h
  cases hcut : cut 0 .plain text.toList with
  | error fault =>
    rw [hcut] at h
    cases h
  | ok pieces =>
    rw [hcut, cut_of_no_semicolon hno hcut] at h
    exact (Except.ok.inj h).symm

theorem split_of_passes {text : String} (h : Passes 0 .plain text.toList 0 .plain) :
    split text = .ok [Text.trim text] := by
  rw [split, cut_of_passes h]
  rfl

end Script

/-! ## Statements are visible -/

/-- A blank text is no statement. -/
theorem Statement.isBlankText_of_parse {text : String} {statement : Statement}
    (h : parse text = .ok statement) : Text.isBlankText text = false := by
  obtain ⟨head, tail, hsplit, hkey, -, -⟩ := parse_ok_iff.1 h
  by_contra hblank
  have hall : ∀ c ∈ text.toList, Text.isBlank c = true := by
    simpa [Text.isBlankText] using hblank
  have hequals : '=' ∉ text.toList := fun hmem => absurd (hall _ hmem) (by decide)
  rw [Text.splitFirst_of_not_mem hequals] at hsplit
  cases hsplit
  exact hkey.nonempty (Text.trimChars_of_all hall)

theorem Statement.HoldsKey.isPlain {head : List Char} (h : HoldsKey head) :
    ∀ c ∈ head, Script.isPlain c = true := by
  intro c hc
  cases hblank : Text.isBlank c with
  | true => exact Arguments.isPlain_of_blank hblank
  | false =>
    have := List.any_eq_false.1 h.allowed c (Text.mem_trimChars hc hblank)
    simp only [isForbidden, Bool.or_eq_true, beq_iff_eq, not_or] at this
    simp [Script.isPlain, this]

namespace Task

/-! ## The run of a script with one statement -/

theorem plan_execute_congr {e : Engine} {left : Nat} {target : Target} {text text' : String}
    (h : Statement.parse text = Statement.parse text') :
    plan ⟨e, left, .execute target text⟩ = plan ⟨e, left, .execute target text'⟩ := by
  simp only [plan, h]

theorem plan_of_single {e : Engine} {left : Nat} {target : Target} {text statement : String}
    (hsplit : Script.split text = .ok [statement]) (hvisible : Text.isBlankText statement = false) :
    plan ⟨e, left + 1, .script target text⟩ =
      Plan.request (.inner left (.execute target statement)) := by
  simp only [plan, hsplit, statementsPlan, List.filter_cons, hvisible, Bool.not_false, if_true,
    List.filter_nil, List.foldlM_cons, List.foldlM_nil]
  rfl

/-- A task that asks for one other task hits the limit if that one does. -/
theorem hitsLimit_request {t u : Task} (hrefused : ¬ t.Refused)
    (hplan : t.plan = Plan.request (.inner u.left u.job)) (hengine : u.engine = t.engine) :
    t.HitsLimit ↔ u.HitsLimit := by
  have hmakes (v : Task) : t.Makes v ↔ v = u := by
    simp only [Makes, Opens, Orders, Sends, hplan, Plan.reaches_request_iff]
    constructor
    · rintro (⟨hsending, hv⟩ | ⟨_, _, _, -, hsending, -⟩)
      · obtain ⟨e, left, job⟩ := v
        obtain ⟨f, left', job'⟩ := u
        cases hsending
        exact congrArg (Task.mk · left job) (hv.trans hengine.symm)
      · cases hsending
    · rintro rfl
      exact .inl ⟨rfl, hengine⟩
  rw [hitsLimit_iff]
  constructor
  · rintro (h | ⟨v, hv, hlimit⟩)
    · exact (hrefused h).elim
    · rwa [← (hmakes v).1 hv]
  · intro hlimit
    exact .inr ⟨u, (hmakes u).2 rfl, hlimit⟩

/-- A script that cannot be cut fails at once. -/
theorem run_uncut {e : Engine} {left : Nat} {target : Target} {text : String} {fault : ParseFault}
    (h : Script.split text = .error fault) (hops : Nat) :
    e.run (Job.run hops (left + 1) (.script target text)) = (.error (.failed (.parse fault)), e) := by
  rw [run_eq ⟨e, left + 1, .script target text⟩]
  simp only [plan, h]
  rfl

/-- A script that cannot be cut opens none. -/
theorem uncut_not_hitsLimit {e : Engine} {left : Nat} {target : Target} {text : String}
    {fault : ParseFault} (h : Script.split text = .error fault) :
    ¬ HitsLimit ⟨e, left + 1, .script target text⟩ := by
  have hplan : plan ⟨e, left + 1, .script target text⟩ = Run.fail (.parse fault) := by
    simp only [plan, h]
  have sends (s : Sending) (f : Engine) : ¬ Sends ⟨e, left + 1, .script target text⟩ s f := by
    rw [Sends, hplan]
    rintro ⟨_, _, _, hnone⟩
    exact hnone
  rw [hitsLimit_iff]
  rintro (hrefused | ⟨u, hopens | ⟨_, _, _, -, horders⟩, -⟩)
  · cases hrefused
  · exact sends _ _ hopens
  · exact sends _ _ horders

/-- A script that is cut into one statement is run by executing that statement. -/
theorem run_single {e : Engine} {left : Nat} {target : Target} {text : String}
    {statement : Statement} (hparse : Statement.parse text = .ok statement)
    (hlimit : ¬ HitsLimit ⟨e, left + 1, .script target text⟩)
    (hsplit : Script.split text = .ok [Text.trim text]) (hops : Nat) :
    e.run (Job.run hops (left + 1) (.script target text)) =
      e.run (Job.run hops (left + 1) (.execute target text)) := by
  have htrim := Statement.parse_trim hparse
  have hplan : plan ⟨e, left + 1, .script target text⟩ = _ :=
    plan_of_single hsplit (Statement.isBlankText_of_parse htrim)
  have hopens : Opens ⟨e, left + 1, .script target text⟩ ⟨e, left, .execute target (Text.trim text)⟩ := by
    rw [Opens, Sends, hplan]
    exact Plan.reaches_request_iff.2 ⟨rfl, rfl⟩
  calc e.run (Job.run hops (left + 1) (.script target text))
      = e.run (Job.run hops left (.execute target (Text.trim text))) := by
        rw [run_eq ⟨e, left + 1, .script target text⟩, hplan, Plan.run_request]
        rfl
    _ = e.run (Job.run hops (left + 1) (.execute target (Text.trim text))) :=
        (run_deepen hops ⟨e, left, .execute target (Text.trim text)⟩ fun h =>
          hlimit (.of_makes (.inl hopens) h)).symm
    _ = e.run (Job.run hops (left + 1) (.execute target text)) := by
        rw [run_eq ⟨e, left + 1, .execute target text⟩,
          run_eq ⟨e, left + 1, .execute target (Text.trim text)⟩,
          plan_execute_congr (htrim.trans hparse.symm)]

/-- **A script of one statement does what the statement does exactly if the script can be cut**, or
if the statement itself fails as the cut does. -/
theorem single_script_iff (hops left : Nat) (e : Engine) (target : Target) (text : String)
    (statement : Statement) (hno : ';' ∉ text.toList) (hparse : Statement.parse text = .ok statement)
    (hlimit : ¬ HitsLimit ⟨e, left, .script target text⟩) :
    e.run (Job.run hops left (.script target text)) =
        e.run (Job.run hops left (.execute target text)) ↔
      (∃ statements, Script.split text = .ok statements) ∨
        ∃ fault, Script.split text = .error fault ∧
          e.run (Job.run hops left (.execute target text)) = (.error (.failed (.parse fault)), e) := by
  cases left with
  | zero => exact (hlimit ⟨_, .refl, .intro e target text⟩).elim
  | succ left =>
    cases hsplit : Script.split text with
    | error fault =>
      rw [run_uncut hsplit]
      constructor
      · intro h
        exact .inr ⟨fault, rfl, h.symm⟩
      · rintro (⟨_, h⟩ | ⟨_, h, hrun⟩)
        · cases h
        · cases h
          exact hrun.symm
    | ok statements =>
      obtain rfl := Script.split_of_no_semicolon hno hsplit
      exact iff_of_true (run_single hparse hlimit hsplit hops) (.inl ⟨_, rfl⟩)

/-- **A script of one statement in which no bare word has a mark does what the statement does**, and
then a semicolon may stand in quotes or braces. -/
theorem single_script_of_tidy {hops left : Nat} {e : Engine} {target : Target} {text : String}
    {statement : Statement} {head : List Char} {es : Arguments.Elements}
    (htext : text.toList = head ++ '=' :: es.chars) (htidy : es.Tidy) (hkey : Statement.HoldsKey head)
    (hparse : Statement.parse text = .ok statement)
    (hlimit : ¬ HitsLimit ⟨e, left, .script target text⟩) :
    e.run (Job.run hops left (.script target text)) =
      e.run (Job.run hops left (.execute target text)) := by
  cases left with
  | zero => exact (hlimit ⟨_, .refl, .intro e target text⟩).elim
  | succ left =>
    have hequals : Script.isPlain '=' = true := rfl
    have hpasses := (Script.passes_plain hkey.isPlain).append
      ((Script.passes_plainChar hequals).cons (Arguments.Elements.passes 0 htidy))
    rw [← htext] at hpasses
    exact run_single hparse hlimit (Script.split_of_passes hpasses) hops

/-! ## Statements that print -/

section Printing

variable {e : Engine} {target : Target} {text message : String}
  (hparse : Statement.parse text = .ok ⟨"print", .text message⟩)
  (haim : e.aim "print" target = .ok (.generic .print))

include hparse haim

theorem run_printing (hops left : Nat) :
    e.run (Job.run hops left (.execute target text)) =
      (.ok .empty, { e with messages := e.messages.push message }) := by
  rw [run_execute hparse, run_call_of_aim haim]
  rfl

/-- Printing opens no script. -/
theorem printing_not_hitsLimit (left : Nat) : ¬ HitsLimit ⟨e, left, .execute target text⟩ := by
  have hplan : plan ⟨e, left, .execute target text⟩ =
      Plan.request (.inner left (.call "print" target (.text message))) := by
    simp only [plan, hparse]
  have hrequest : HitsLimit ⟨e, left, .execute target text⟩ ↔
      HitsLimit ⟨e, left, .call "print" target (.text message)⟩ :=
    hitsLimit_request (by rintro ⟨⟩) hplan rfl
  rw [hrequest, hitsLimit_iff]
  have hinvokes : Invokes ⟨e, left, .call "print" target (.text message)⟩ (.generic .print)
      (.text message) := .call rfl haim
  have sends (s : Sending) (f : Engine) :
      ¬ Sends ⟨e, left, .call "print" target (.text message)⟩ s f := by
    rw [Sends, plan_of_invokes hinvokes]
    rintro ⟨_, _, _, h⟩
    exact h
  rintro (hrefused | ⟨u, hopens | ⟨_, _, _, -, horders⟩, -⟩)
  · cases hrefused
  · exact sends _ _ hopens
  · exact sends _ _ horders

theorem printing_script_not_hitsLimit (left : Nat) (hsplit : Script.split text = .ok [text]) :
    ¬ HitsLimit ⟨e, left + 1, .script target text⟩ := by
  have hplan : plan ⟨e, left + 1, .script target text⟩ = _ :=
    plan_of_single hsplit (Statement.isBlankText_of_parse hparse)
  have hrequest : HitsLimit ⟨e, left + 1, .script target text⟩ ↔
      HitsLimit ⟨e, left, .execute target text⟩ :=
    hitsLimit_request (by rintro ⟨⟩) hplan rfl
  rw [hrequest]
  exact printing_not_hitsLimit hparse haim left

end Printing

end Task

theorem Engine.sample_aim_print : sample.aim "print" .generic = .ok (.generic .print) := by
  obtain ⟨entry, hentry, hcallable⟩ := sample_bound "print" (.generic .print)
    ⟨_, Builtin.print_mem, rfl, rfl⟩
  exact aim_generic hentry hcallable

/-- A bare word is an argument without the blanks at its end. -/
theorem Statement.parse_word {key : String} (hkey : IsKey key) (run : Arguments.BareRun)
    (h : Arguments.Visible run.val) : parse (key ++ "=" ++ String.ofList run.val) =
      .ok ⟨key, .text (String.ofList (Text.trimChars run.val))⟩ :=
  hkey.parse (Arguments.parse_bare h)

theorem Statement.parse_printing (run : Arguments.BareRun) (h : Arguments.Visible run.val) :
    parse ("print=" ++ String.ofList run.val) =
      .ok ⟨"print", .text (String.ofList (Text.trimChars run.val))⟩ :=
  parse_word (show IsKey "print" by decide) run h

/-- A script that prints a word. -/
theorem Engine.runs_printing_script :
    sample.executeScript .generic "print=hi" = sample.execute .generic "print=hi" := by
  have hparse : Statement.parse "print=hi" = .ok ⟨"print", .text "hi"⟩ :=
    Statement.parse_printing ⟨['h', 'i'], List.all_eq_true.1 rfl, .cons rfl⟩
      ⟨'h', by decide, by decide⟩
  have hsplit : Script.split "print=hi" = .ok ["print=hi"] := rfl
  have hlimit : ¬ Task.HitsLimit ⟨sample, scriptLimit, .script .generic "print=hi"⟩ :=
    Task.printing_script_not_hitsLimit hparse sample_aim_print 63 hsplit
  exact (Task.single_script_iff hopLimit scriptLimit sample .generic "print=hi" _ (by decide +kernel)
    hparse hlimit).2 (.inl ⟨_, hsplit⟩)

/-- **A quote within a bare word.** The statement prints the word, and the script of the same text
fails. -/
theorem Engine.quoted_word_script_fails :
    ¬ ∀ (e : Engine) (target : Target) (text : String) (statement : Statement),
      ';' ∉ text.toList → Statement.parse text = .ok statement →
        ¬ Task.HitsLimit ⟨e, scriptLimit, .script target text⟩ →
          e.executeScript target text = e.execute target text := by
  intro h
  have hparse : Statement.parse "print=a\"b" = .ok ⟨"print", .text "a\"b"⟩ :=
    Statement.parse_printing ⟨['a', '"', 'b'], List.all_eq_true.1 rfl, .cons rfl⟩
      ⟨'a', by decide, by decide⟩
  have hsplit : Script.split "print=a\"b" = .error .unterminatedStringInScript := rfl
  have hlimit : ¬ Task.HitsLimit ⟨sample, 63 + 1, .script .generic "print=a\"b"⟩ :=
    Task.uncut_not_hitsLimit hsplit
  have hequal := h sample .generic "print=a\"b" _ (by decide +kernel) hparse hlimit
  have hscript : sample.executeScript .generic "print=a\"b" = _ :=
    Task.run_uncut hsplit hopLimit
  have hexecute := Task.run_printing hparse sample_aim_print hopLimit scriptLimit
  have hboth := hscript.symm.trans (hequal.trans hexecute)
  exact nomatch congrArg Prod.fst hboth

end TorrentControl
