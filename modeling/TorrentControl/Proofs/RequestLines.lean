import TorrentControl.Proofs.Addressing
import TorrentControl.Proofs.Requests

/-! # Which lines are read as requests

A line is a JSON text, and whatever blank bytes stand at its end do not count. It is read as the
request that the text is written for, if the method is not blank. What is JSON and not written for a
request is told to be invalid, and what is not JSON is told to be malformed, with an exception to
each of the two. -/

namespace TorrentControl.Rpc.Request

open Json (Document)
open Outcome

variable {line : List UInt8} {d : Document} {r : Request}

/-! ## Lines and texts -/

/-- **The line is a text of the document** with blank bytes after it. -/
def Shows (line : List UInt8) (d : Document) : Prop :=
  ∃ text trailing, line = Text.Utf8.encode text ++ trailing ∧ Json.PaddedText d text ∧
    ∀ b ∈ trailing, isTrailing b = true

theorem shows_write (h : d.Writable) {trailing : List UInt8}
    (htrailing : ∀ b ∈ trailing, isTrailing b = true) :
    Shows (Text.Utf8.encode d.write ++ trailing) d :=
  ⟨d.write, trailing, rfl, (Document.valueText_write h).padded, htrailing⟩

theorem trimLine_append_trailing {trailing : List UInt8} (bytes : List UInt8)
    (h : ∀ b ∈ trailing, isTrailing b = true) : trimLine (bytes ++ trailing) = trimLine bytes := by
  have hreverse : ∀ b ∈ trailing.reverse, isTrailing b = true :=
    fun b hb => h b (List.mem_reverse.1 hb)
  rw [trimLine, List.reverse_append, List.dropWhile_append_of_pos hreverse]
  rfl

theorem exists_trailing (line : List UInt8) : ∃ trailing, line = trimLine line ++ trailing ∧
    ∀ b ∈ trailing, isTrailing b = true := by
  refine ⟨(line.reverse.takeWhile isTrailing).reverse, ?_, fun b hb => ?_⟩
  · rw [trimLine, ← List.reverse_append, List.takeWhile_append_dropWhile, List.reverse_reverse]
  · exact List.all_eq_true.1 List.all_takeWhile b (List.mem_reverse.1 hb)

theorem trimLine_eq_nil_iff : trimLine line = [] ↔ ∀ b ∈ line, isTrailing b = true := by
  constructor
  · intro h
    obtain ⟨trailing, hline, htrailing⟩ := exists_trailing line
    rw [hline, h, List.nil_append]
    exact htrailing
  · intro h
    rw [← List.nil_append line, trimLine_append_trailing [] h]
    rfl

/-- White space of a text at the end of a line does not count. -/
theorem isTrailing_of_spaces {spaces : List Char} (h : Json.Spaces spaces) :
    ∀ b ∈ Text.Utf8.encode spaces, isTrailing b = true := by
  intro b hb
  obtain ⟨c, hc, hb⟩ := List.mem_flatMap.1 hb
  have hspace := h c hc
  simp only [Json.isSpace, Bool.or_eq_true, beq_iff_eq] at hspace
  rcases hspace with ((rfl | rfl) | rfl) | rfl <;> cases List.mem_singleton.1 hb <;> rfl

/-- An array or an object. -/
def isContainer : Document → Bool
  | .array _ _ | .object _ _ => true
  | _ => false

theorem encode_marked (opening closing : Char) (text : List Char) :
    Text.Utf8.encode (opening :: (text ++ [closing])) =
      Text.Utf8.encode (opening :: text) ++ Text.Utf8.encode [closing] := by
  simp [Text.Utf8.encode]

/-- The last character of an array or an object is its closing mark. -/
theorem exists_closing {text : List Char} (h : Json.ValueText d text) (hd : isContainer d = true) :
    ∃ bytes b, Text.Utf8.encode text = bytes ++ [b] ∧ isTrailing b = false := by
  cases h with
  | null | true | false | number | string => cases hd
  | emptyArray | array =>
    exact ⟨_, 0x5D, encode_marked '[' ']' _, by decide⟩
  | emptyObject | object =>
    exact ⟨_, 0x7D, encode_marked '\x7b' '\x7d' _, by decide⟩

/-- **A line that shows an array or an object is read as it.** -/
theorem Shows.reading (h : Shows line d) (hd : isContainer d = true) (hnesting : d.nesting < 128) :
    trimLine line ≠ [] ∧ Json.Reading.ofBytes Json.nestingLimit (trimLine line) = ⟨d, true⟩ := by
  obtain ⟨_, trailing, rfl, @⟨_, lead, text, trail, hlead, htext, htrail⟩, htrailing⟩ := h
  obtain ⟨bytes, b, htextBytes, hb⟩ := exists_closing htext hd
  have hrest : ∀ b ∈ Text.Utf8.encode trail ++ trailing, isTrailing b = true :=
    fun b hb => (List.mem_append.1 hb).elim (isTrailing_of_spaces htrail b) (htrailing b)
  have hline : Text.Utf8.encode (lead ++ (text ++ trail)) ++ trailing =
      Text.Utf8.encode (lead ++ text) ++ (Text.Utf8.encode trail ++ trailing) := by
    simp only [Text.Utf8.encode, List.flatMap_append, List.append_assoc]
  have hkept : Text.Utf8.encode (lead ++ text) = Text.Utf8.encode lead ++ bytes ++ [b] := by
    rw [List.append_assoc, ← htextBytes]
    exact List.flatMap_append
  have htrim : trimLine (Text.Utf8.encode (lead ++ (text ++ trail)) ++ trailing) =
      Text.Utf8.encode (lead ++ text) := by
    rw [hline, trimLine_append_trailing _ hrest, hkept, trimLine_append hb]
  rw [htrim]
  refine ⟨by simp [hkept], ?_⟩
  have hpadded : Json.PaddedText d (lead ++ text) := by
    simpa using Json.PaddedText.mk hlead htext (List.forall_mem_nil _)
  exact (Json.Reading.ofBytes_eq_iff.2 ⟨_, rfl, hpadded, Nat.le_of_lt_succ hnesting⟩).1

theorem Shows.of_reading (hread : Json.Reading.ofBytes Json.nestingLimit (trimLine line) = ⟨d, true⟩)
    (hjoined : d.Joined) : Shows line d ∧ d.nesting < 128 := by
  obtain ⟨text, hline, htext, hnesting⟩ := Json.Reading.ofBytes_eq_iff.1 ⟨hread, hjoined⟩
  obtain ⟨trailing, hsplit, htrailing⟩ := exists_trailing line
  exact ⟨⟨text, trailing, hline ▸ hsplit, htext, htrailing⟩, Nat.lt_succ_of_le hnesting⟩

/-- Of a line that no blank byte ends, all of it is the text. -/
theorem Shows.padded {text : List Char} (h : Shows (Text.Utf8.encode text) d)
    (htrim : trimLine (Text.Utf8.encode text) = Text.Utf8.encode text) : Json.PaddedText d text := by
  obtain ⟨text', trailing, hline, htext, htrailing⟩ := h
  obtain ⟨more, hmore, -⟩ := exists_trailing (Text.Utf8.encode text')
  rw [hline, trimLine_append_trailing _ htrailing] at htrim
  have hlength := congrArg List.length htrim
  have hlength' := congrArg List.length hmore
  simp only [List.length_append] at hlength hlength'
  obtain rfl := List.eq_nil_of_length_eq_zero (show trailing.length = 0 by omega)
  rw [List.append_nil] at hline
  have hdecode := Text.Utf8.decodeStrict_eq_iff.2 hline
  rw [Text.Utf8.decodeStrict_encode] at hdecode
  obtain ⟨rfl, -⟩ := Prod.mk.inj hdecode
  exact htext

/-- No such line shows a document if the reader takes none from its tokens. -/
theorem not_shows {text : List Char}
    (htrim : trimLine (Text.Utf8.encode text) = Text.Utf8.encode text)
    (h : ∀ limit d, ¬ Document.Reads limit (Json.tokens text) d []) :
    ¬ ∃ d, Shows (Text.Utf8.encode text) d := by
  rintro ⟨d, hshows⟩
  obtain ⟨hread, -⟩ := Json.Reading.ofTokens_tokens_iff.2 ⟨hshows.padded htrim, Nat.le_refl _⟩
  exact h _ d (Json.Reading.ofTokens_eq_iff.1 hread)

/-! ## Lines and requests -/

/-- What is answered about a line whose text has this outcome. -/
def judge : Json.Decoded Request → Except Failure Request
  | .error .malformed => .error (.malformed .notJson)
  | .error (.invalid what) => .error (.invalid (.shape what))
  | .ok r => if Text.isBlankText r.method then .error (.invalid .blankMethod) else .ok r

theorem ofLine_eq (line : List UInt8) : ofLine line =
    if trimLine line = [] then .error (.malformed .empty)
    else judge ((Json.Reading.ofBytes Json.nestingLimit (trimLine line)).decode ofDocument) := by
  by_cases h : trimLine line = []
  · rw [if_pos h, ofLine, h]
    rfl
  · have hkept : ¬ (trimLine line).isEmpty = true := by simpa using h
    simp only [ofLine, if_neg hkept, if_neg h]
    generalize (Json.Reading.ofBytes Json.nestingLimit (trimLine line)).decode ofDocument = outcome
    cases outcome with
    | error problem => cases problem <;> rfl
    | ok r =>
      rw [judge]
      simp only
      split <;> rfl

theorem judge_eq_ok_iff {outcome : Json.Decoded Request} :
    judge outcome = .ok r ↔ outcome = .ok r ∧ Text.isBlankText r.method = false := by
  match outcome with
  | .error .malformed | .error (.invalid _) => exact iff_of_false nofun nofun
  | .ok r' =>
    rw [judge]
    split
    · rename_i hblank
      refine iff_of_false nofun ?_
      rintro ⟨⟨⟩, h⟩
      rw [hblank] at h
      cases h
    · rename_i hblank
      constructor
      · rintro ⟨⟩
        exact ⟨rfl, by simpa using hblank⟩
      · rintro ⟨⟨⟩, -⟩
        rfl

/-- A whole text has the outcome of its document. -/
theorem decode_whole (d : Document) : Json.Reading.decode ⟨d, true⟩ ofDocument = ofDocument d := by
  rw [Json.Reading.decode]
  cases ofDocument d <;> rfl

theorem decode_eq_ok_iff {reading : Json.Reading} :
    reading.decode ofDocument = .ok r ↔ ∃ d, reading = ⟨d, true⟩ ∧ r.Writes d := by
  obtain ⟨d, whole⟩ := reading
  cases whole with
  | false =>
    refine iff_of_false (fun h => ?_) nofun
    obtain ⟨_, -, ⟨⟩⟩ := bind_eq_ok_iff.1 h
  | true =>
    rw [decode_whole, ofDocument_eq_ok_iff]
    exact ⟨fun h => ⟨d, rfl, h⟩, by rintro ⟨_, ⟨⟩, h⟩; exact h⟩

theorem WritesMember.joined {member : Option String × Document} (h : r.WritesMember member) :
    member.1.isSome ∧ member.2.Joined := by
  cases h with
  | method => exact ⟨rfl, rfl⟩
  | target h => exact ⟨rfl, h.joined⟩
  | params h => exact ⟨rfl, h.joined⟩

theorem Writes.joined (h : r.Writes d) : d.Joined := by
  cases h with
  | @object members h =>
    have hmembers : ∀ members : List (Option String × Document),
        (∀ member ∈ members, r.WritesMember member) → Document.JoinedMembers members := by
      intro members
      induction members with
      | nil => exact fun _ => trivial
      | cons member members ih =>
        intro heach
        obtain ⟨hkey, hjoined⟩ := (heach _ (.head _)).joined
        exact ⟨hkey, hjoined, ih fun member h => heach member (.tail _ h)⟩
    exact hmembers members h.each
  | method => exact ⟨rfl, trivial⟩
  | target htarget => exact ⟨rfl, htarget.joined, trivial⟩
  | params htarget hparams => exact ⟨rfl, htarget.joined, hparams.joined, trivial⟩

theorem Writes.isContainer (h : r.Writes d) : isContainer d = true := by
  cases h <;> rfl

/-- **Exactly the lines that show what is written for a request are read as it**, if its method is
not blank. -/
theorem ofLine_eq_ok_iff : ofLine line = .ok r ↔ Text.isBlankText r.method = false ∧
    ∃ d, Shows line d ∧ d.nesting < 128 ∧ r.Writes d := by
  constructor
  · intro h
    rw [ofLine_eq] at h
    split at h
    · cases h
    · obtain ⟨hdecode, hmethod⟩ := judge_eq_ok_iff.1 h
      obtain ⟨d, hread, hwrites⟩ := decode_eq_ok_iff.1 hdecode
      obtain ⟨hshows, hnesting⟩ := Shows.of_reading hread hwrites.joined
      exact ⟨hmethod, d, hshows, hnesting, hwrites⟩
  · rintro ⟨hmethod, d, hshows, hnesting, hwrites⟩
    obtain ⟨hkept, hread⟩ := hshows.reading hwrites.isContainer hnesting
    rw [ofLine_eq, if_neg hkept, judge_eq_ok_iff, decode_eq_ok_iff]
    exact ⟨⟨d, hread, hwrites⟩, hmethod⟩

/-- **An object that is not what a request should be**: a member is repeated or missing, its key or
what stands under it is none of a request, or the method is blank. -/
inductive Faulty (members : List (Option String × Document)) : Prop where
  | repeated (h : ¬ (keys members).Nodup)
  | noMethod (h : some "method" ∉ keys members)
  | unknown {key : String} (h : some key ∈ keys members)
      (hkey : key ∉ ["method", "target", "params"])
  | target {d : Document} (h : (some "target", d) ∈ members) (hd : ∀ t : TargetSpec, ¬ t.Writes d)
  | blank {method : String} (h : (some "method", .string method) ∈ members)
      (hblank : Text.isBlankText method = true)

theorem Faulty.blank_of_hasMembers {members : List (Option String × Document)} (h : Faulty members)
    (hmembers : r.HasMembers members) : Text.isBlankText r.method = true := by
  cases h with
  | repeated h => exact absurd hmembers.once h
  | noMethod h => exact absurd hmembers.method h
  | unknown h hkey =>
    obtain ⟨d, hd⟩ := mem_keys_iff.1 h
    have hwrites := WritesMember.iff.1 (hmembers.each _ hd)
    simp only [List.mem_cons, List.not_mem_nil, or_false, not_or] at hkey
    simp [hkey] at hwrites
  | target h hd =>
    have hwrites := WritesMember.iff.1 (hmembers.each _ h)
    simp only [String.reduceEq, false_and, true_and, false_or, or_false] at hwrites
    exact absurd hwrites (hd _)
  | blank h hblank =>
    have hwrites := WritesMember.iff.1 (hmembers.each _ h)
    simp only [String.reduceEq, false_and, true_and, or_false, Document.string, Document.text.injEq,
      Option.some.injEq] at hwrites
    exact hwrites ▸ hblank

theorem ofLine_faulty {members : List (Option String × Document)}
    (h : Shows line (.object members .closed))
    (hnesting : (Document.object members .closed).nesting < 128)
    (hnumbers : ∀ n ∈ (Document.object members .closed).numerals, n.value ≠ .outOfRange)
    (hfaulty : Faulty members) :
    (Misread members → ofLine line = .error (.malformed .notJson)) ∧
      (¬ Misread members → ∃ what, ofLine line = .error (.invalid what)) := by
  obtain ⟨hkept, hread⟩ := h.reading rfl hnesting
  obtain ⟨text, -, -, htext, -⟩ := h
  have hmalformed := ofDocument_object_eq_malformed_iff ⟨htext.writable, hnumbers⟩
  rw [ofLine_eq, if_neg hkept, hread, decode_whole]
  constructor
  · intro hmisread
    rw [hmalformed.2 hmisread]
    rfl
  · intro hread
    match houtcome : ofDocument (.object members .closed) with
    | .error .malformed => exact absurd (hmalformed.1 houtcome) hread
    | .error (.invalid what) => exact ⟨_, rfl⟩
    | .ok r =>
      have hblank := hfaulty.blank_of_hasMembers (ofDocument_object_eq_ok_iff.1 houtcome)
      exact ⟨.blankMethod, by rw [judge, if_pos hblank]⟩

theorem ofLine_not_json (h : ¬ ∃ d, Shows line d ∧ d.nesting < 128) :
    (∃ why, ofLine line = .error (.malformed why)) ∨
      ∃ what, ofLine line = .error (.invalid (.shape what)) ∧
        ∀ d, Json.Begins (Json.Reading.ofBytes Json.nestingLimit (trimLine line)).document d →
          ofDocument d = .error (.invalid what) := by
  rw [ofLine_eq]
  split
  · exact .inl ⟨_, rfl⟩
  · match houtcome : (Json.Reading.ofBytes Json.nestingLimit (trimLine line)).decode ofDocument with
    | .error .malformed => exact .inl ⟨_, rfl⟩
    | .error (.invalid what) =>
      rcases bind_eq_error_iff.1 houtcome with hdecode | ⟨r, -, hwhole⟩
      · exact .inr ⟨what, rfl, fun d hd => steady_ofDocument hd hdecode⟩
      · split at hwhole <;> cases hwhole
    | .ok r =>
      obtain ⟨d, hread, hwrites⟩ := decode_eq_ok_iff.1 houtcome
      exact absurd ⟨d, Shows.of_reading hread hwrites.joined⟩ h

/-- Each request has a document, and is read from the lines that show it. -/
theorem Shows.ofLine_eq (h : Shows line r.toDocument) (htarget : r.target.Fits)
    (hordered : r.params.Ordered) (hraw : r.params.RawFree)
    (hnesting : r.params.toDocument.nesting < 127) (hmethod : Text.isBlankText r.method = false) :
    ofLine line = .ok r := by
  have htwo := r.target.nesting_toDocument_le
  have hnested : r.toDocument.nesting =
      max 0 (max r.target.toDocument.nesting (max r.params.toDocument.nesting 0)) + 1 := rfl
  have hlimit : r.toDocument.nesting < 128 := by omega
  exact ofLine_eq_ok_iff.2 ⟨hmethod, _, h, hlimit, writes_toDocument htarget hordered hraw⟩

theorem ofLine_eq_empty_iff : ofLine line = .error (.malformed .empty) ↔
    ∀ b ∈ line, isTrailing b = true := by
  rw [ofLine_eq, ← trimLine_eq_nil_iff]
  constructor
  · intro h
    by_contra hkept
    rw [if_neg hkept] at h
    generalize (Json.Reading.ofBytes Json.nestingLimit (trimLine line)).decode ofDocument = outcome
      at h
    match outcome with
    | .error .malformed | .error (.invalid _) => cases h
    | .ok r =>
      rw [judge] at h
      split at h <;> cases h
  · exact fun h => if_pos h

/-- **A line is read as the request that it shows, and else it is told what is wrong with it.** Each
request has a document, and its members may come in any order. A faulty object is told to be
invalid, unless its members go on well up to a target whose fault counts as one of form. And a
line that is no JSON is told to be malformed, unless what can be read of it is already invalid,
however it goes on. -/
theorem reads_documented_requests (line : List UInt8) :
    (∀ r : Request, Shows line r.toDocument → r.target.Fits → r.params.Ordered →
      r.params.RawFree → r.params.toDocument.nesting < 127 → Text.isBlankText r.method = false →
        ofLine line = .ok r) ∧
    (∀ r : Request, ofLine line = .ok r ↔
      Text.isBlankText r.method = false ∧ ∃ d, Shows line d ∧ d.nesting < 128 ∧ r.Writes d) ∧
    (∀ members, Shows line (.object members .closed) →
      (Document.object members .closed).nesting < 128 →
      (∀ n ∈ (Document.object members .closed).numerals, n.value ≠ .outOfRange) → Faulty members →
        (Misread members → ofLine line = .error (.malformed .notJson)) ∧
          (¬ Misread members → ∃ what, ofLine line = .error (.invalid what))) ∧
    (ofLine line = .error (.malformed .empty) ↔ ∀ b ∈ line, isTrailing b = true) ∧
    ((¬ ∃ d, Shows line d ∧ d.nesting < 128) →
      (∃ why, ofLine line = .error (.malformed why)) ∨
        ∃ what, ofLine line = .error (.invalid (.shape what)) ∧
          ∀ d, Json.Begins (Json.Reading.ofBytes Json.nestingLimit (trimLine line)).document d →
            ofDocument d = .error (.invalid what)) := by
  refine ⟨?_, ?_, ?_, ?_, ?_⟩
  · intro r hshows htarget hordered hraw hnesting hmethod
    exact hshows.ofLine_eq htarget hordered hraw hnesting hmethod
  · intro r
    exact ofLine_eq_ok_iff
  · intro members hshows hnesting hnumbers hfaulty
    exact ofLine_faulty hshows hnesting hnumbers hfaulty
  · exact ofLine_eq_empty_iff
  · exact ofLine_not_json

/-- A request whose members are written from the last to the first, with blanks after them; a blank
method; and a line that breaks off. -/
theorem reads_in_another_order :
    let r : Request := ⟨"f.get_path", .file "00" 1, .list [.int 7]⟩
    let d : Document := .record [("params", .list [.int 7]),
      ("target", TargetSpec.place "file" "00" 1), ("method", .string "f.get_path")]
    let blank : List (Option String × Document) := [(some "method", .string " ")]
    ofLine (Text.Utf8.encode d.write ++ [0x20, 0x0A]) = .ok r ∧
      ofLine (Text.Utf8.encode r.toDocument.write ++ []) = .ok r ∧
      (∃ what, ofLine (Text.Utf8.encode (Document.object blank .closed).write ++ []) =
        .error (.invalid what)) ∧
      ∃ why, ofLine [0x7B] = .error (.malformed why) := by
  intro r d blank
  have hfits : 1 < 2 ^ 64 := by decide
  have hmethod : Text.isBlankText r.method = false := by decide
  have hwritable : d.Writable :=
    ⟨⟨rfl, ⟨⟨Json.Numeral.wellFormed_ofInt 7, trivial⟩, rfl⟩, rfl,
      TargetSpec.writable_toDocument (.file "00" 1), rfl, rfl, trivial⟩, rfl⟩
  have hwrites : r.Writes d := by
    have hparams : Value.Mirrors (.list [.int 7]) r.params := by
      rw [← Value.ofDocument_eq_ok_iff]
      rfl
    have heach : ∀ member ∈ [(some "params", .list [.int 7]),
        (some "target", TargetSpec.place "file" "00" 1), (some "method", .string r.method)],
        r.WritesMember member := by
      simp only [List.forall_mem_cons, List.not_mem_nil, false_implies, implies_true, and_true]
      have htarget := @TargetSpec.writes_toDocument (.file "00" 1) hfits
      exact ⟨.params hparams, .target htarget, .method⟩
    have honce : [some "params", some "target", some "method"].Nodup := by decide
    have hmethodKey : some "method" ∈ [some "params", some "target", some "method"] := by decide
    exact .object ⟨heach, honce, hmethodKey, .inl (.tail _ (.head _)), .inl (.head _)⟩
  have hblank : Faulty blank := .blank (.head _) (by decide)
  have hmisread : ¬ Misread blank := by
    rintro ⟨before, d, after, r, hmembers, -⟩
    have hmem : (some "target", d) ∈ blank := hmembers ▸ List.mem_append_right _ (.head _)
    simp [blank] at hmem
  have hblankWritable : (Document.object blank .closed).Writable := ⟨⟨rfl, rfl, trivial⟩, rfl⟩
  have hshows := shows_write hblankWritable (List.forall_mem_nil _)
  have hdecode := Text.Utf8.decodeStrict_encode ['\x7b']
  have htokens : Json.tokens ['\x7b'] = [.openBrace] := by
    rw [Json.tokens_cons (by decide), Json.lexOne, Json.tokens]
  have hbroken : ¬ ∃ d, Shows [0x7B] d := by
    have hunread : ∀ limit d, ¬ Document.Reads limit (Json.tokens ['\x7b']) d [] := by
      rw [htokens]
      rintro limit d (_ | _ | _ | _ | _ | _ | _ | ⟨⟨⟩⟩)
    exact not_shows (by decide) hunread
  have hread : (Json.Reading.ofBytes Json.nestingLimit (trimLine [0x7B])).document =
      .object [] (.stopped none) := by
    have htrim : trimLine [0x7B] = Text.Utf8.encode ['\x7b'] := by decide
    have hvalue : Document.readValue Json.nestingLimit [.openBrace] =
        (.object [] (.stopped none), none) := by
      simp [Json.nestingLimit, Document.readValue, Document.readMembers]
    rw [htrim, Json.Reading.ofBytes, hdecode]
    simp only
    rw [htokens, Json.Reading.ofTokens, hvalue]
  refine ⟨?_, ?_, ?_, ?_⟩
  · have htrailing : [0x20, 0x0A].all isTrailing = true := rfl
    have hline := shows_write hwritable (List.all_eq_true.1 htrailing)
    obtain ⟨-, hread, -⟩ := reads_documented_requests (Text.Utf8.encode d.write ++ [0x20, 0x0A])
    exact (hread r).2 ⟨hmethod, d, hline, by decide, hwrites⟩
  · have hline := shows_write (writable_toDocument r) (List.forall_mem_nil _)
    exact (reads_documented_requests _).1 r hline hfits ⟨trivial, trivial⟩ ⟨trivial, trivial⟩
      (by decide) hmethod
  · have hnumbers : ∀ n ∈ (Document.object blank .closed).numerals, n.value ≠ .outOfRange :=
      List.forall_mem_nil _
    exact ((reads_documented_requests _).2.2.1 blank hshows (by decide) hnumbers hblank).2 hmisread
  · have hunclaimed : ¬ ∃ d, Shows [0x7B] d ∧ d.nesting < 128 := by
      rintro ⟨d, h, -⟩
      exact hbroken ⟨d, h⟩
    refine ((reads_documented_requests _).2.2.2.2 hunclaimed).resolve_right ?_
    rintro ⟨what, -, hall⟩
    rw [hread] at hall
    cases hall _ .same

/-- A target with a third item is JSON of the wrong shape, and told to be no JSON. The beginning of
a member that no request has is no JSON, and told to be of the wrong shape. -/
theorem faults_of_form_and_shape_confused :
    let members : List (Option String × Document) := [(some "method", .string "x"),
      (some "target", TargetSpec.tagged "file" (.list [.string "00", .int 0, .int 1]))]
    let line := Text.Utf8.encode (Document.object members .closed).write
    (Shows line (.object members .closed) ∧ Faulty members ∧
      ofLine line = .error (.malformed .notJson)) ∧
    ((¬ ∃ d, Shows [0x7B, 0x22, 0x61, 0x22] d) ∧
      ∃ what, ofLine [0x7B, 0x22, 0x61, 0x22] = .error (.invalid what)) := by
  intro members line
  constructor
  · have hint (i : Int) : (Json.Numeral.ofInt i).WellFormed := Json.Numeral.wellFormed_ofInt i
    have hwritable : (Document.object members .closed).Writable :=
      ⟨⟨rfl, rfl, rfl, ⟨⟨rfl, ⟨⟨rfl, hint 0, hint 1, trivial⟩, rfl⟩, trivial⟩, rfl⟩, trivial⟩, rfl⟩
    have hshows : Shows line (.object members .closed) := by
      have hshows := shows_write hwritable (List.forall_mem_nil _)
      rwa [List.append_nil] at hshows
    have hfaulty : Faulty members := by
      refine .target (.tail _ (.head _)) fun t h => ?_
      obtain ⟨content, -, hholds⟩ := TargetSpec.writes_tagged_iff.1 h
      cases hholds
    have hmisread : Misread members := by
      have hfits : 0 < 2 ^ 64 := by decide
      have hwrites := @TargetSpec.writes_toDocument (.file "00" 0) hfits
      refine ⟨[_], _, [], ⟨"x", .generic, .empty⟩, rfl, ?_, List.nodup_singleton _, ?_,
        .items hwrites⟩
      · exact fun member h => List.mem_singleton.1 h ▸ .method
      · show some "target" ∉ [some "method"]
        decide
    have hnumbers : ∀ n ∈ (Document.object members .closed).numerals, n.value ≠ .outOfRange := by
      show ∀ n ∈ [Json.Numeral.ofInt 0, Json.Numeral.ofInt 1], n.value ≠ .outOfRange
      decide
    exact ⟨hshows, hfaulty, (ofLine_faulty hshows (by decide) hnumbers hfaulty).1 hmisread⟩
  · have hline : [0x7B, 0x22, 0x61, 0x22] = Text.Utf8.encode ['\x7b', '"', 'a', '"'] := by decide
    have htrim : trimLine [0x7B, 0x22, 0x61, 0x22] = [0x7B, 0x22, 0x61, 0x22] := by decide
    have hlex : Json.lexString ['a', '"'] = some ([.char 'a'], []) := by decide
    have htokens : Json.tokens ['\x7b', '"', 'a', '"'] = [.openBrace, .string [.char 'a']] := by
      rw [Json.tokens_cons (by decide), Json.lexOne, Json.tokens_cons (by decide), Json.lexOne, hlex,
        Json.orFault, Json.tokens]
    constructor
    · have hunread : ∀ limit d,
          ¬ Document.Reads limit (Json.tokens ['\x7b', '"', 'a', '"']) d [] := by
        rw [htokens]
        rintro limit d (_ | _ | _ | _ | _ | _ | _ | ⟨⟨⟩⟩)
      exact hline ▸ not_shows (hline ▸ htrim) hunread
    · have hread : Document.readValue Json.nestingLimit [.openBrace, .string [.char 'a']] =
          (.object [(some "a", .broken)] (.stopped none), none) := by
        simp [Json.nestingLimit, Document.readValue, Document.readMembers]
        rfl
      have hdecode := Text.Utf8.decodeStrict_encode ['\x7b', '"', 'a', '"']
      rw [← hline] at hdecode
      rw [ofLine_eq, htrim, if_neg (by decide), Json.Reading.ofBytes, hdecode]
      simp only
      rw [htokens, Json.Reading.ofTokens, hread]
      exact ⟨_, rfl⟩

end TorrentControl.Rpc.Request
