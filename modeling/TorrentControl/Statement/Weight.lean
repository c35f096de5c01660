import TorrentControl.Statement

/-! # The size of arguments

A value weighs as much as the texts in it and one more for each list around them. Reading a text never
makes a value that is heavier than the text is long, and the arguments of a statement are lighter
than its text, because the key takes at least one character. So commands that stand within
arguments are lighter than the arguments, to any depth. -/

namespace TorrentControl

namespace Value

mutual
def weight : Value → Nat
  | .text s => s.length
  | .list items => 1 + weightOfItems items
  | .map entries => 1 + weightOfEntries entries
  | _ => 0

def weightOfItems : List Value → Nat
  | [] => 0
  | v :: rest => weight v + weightOfItems rest

def weightOfEntries : List (String × Value) → Nat
  | [] => 0
  | (_, v) :: rest => weight v + weightOfEntries rest
end

end Value

namespace Arguments

open Value (weight weightOfItems)

theorem quoted_length_le {cs text : List Char} {rest : Rest cs}
    (h : quoted cs = .ok (text, rest)) : text.length + 1 + rest.val.length ≤ cs.length := by
  fun_induction quoted cs generalizing text with
  | case1 => cases h
  | case2 rest =>
    cases h
    simp
    omega
  | case3 => cases h
  | case4 c rest ih =>
    simp only [bind, Except.bind] at h
    split at h
    · cases h
    · rename_i read hread
      obtain ⟨inner, more⟩ := read
      cases h
      have := ih hread
      simp only [Rest.widen, List.length_cons]
      omega
  | case5 c rest _ _ _ ih =>
    simp only [bind, Except.bind] at h
    split at h
    · cases h
    · rename_i read hread
      obtain ⟨inner, more⟩ := read
      cases h
      have := ih hread
      simp only [Rest.widen, List.length_cons]
      omega

theorem weight_element {cs : List Char} {v : Value} {rest : Rest cs}
    (inner : ∀ few : List Char, few.length < cs.length → ∀ vs more, listBody few = .ok (vs, more) →
      weightOfItems vs + more.val.length ≤ few.length)
    (h : element cs = .ok (v, rest)) : weight v + rest.val.length ≤ cs.length := by
  rw [element] at h
  split at h
  · rename_i more hc
    have hlt := shorter hc
    simp only [bind, Except.bind] at h
    split at h
    · cases h
    · rename_i read hread
      cases h
      have := quoted_length_le hread
      simp only [weight, String.length_ofList, Rest.widen]
      omega
  · rename_i more hc
    have hlt := shorter hc
    simp only [bind, Except.bind] at h
    split at h
    · cases h
    · rename_i read hread
      cases h
      have := inner _ hlt _ _ hread
      simp only [weight, Rest.widen]
      omega
  · cases h
    have h1 := (skipBlank cs).property
    have h2 := Text.trimChars_length_le ((skipBlank cs).val.takeWhile isBare)
    have h3 := congrArg List.length
      (List.takeWhile_append_dropWhile (p := isBare) (l := (skipBlank cs).val))
    simp only [List.length_append] at h3
    simp only [weight, String.length_ofList]
    omega

theorem weight_elements {nested : Bool} {cs : List Char} {vs : List Value} {rest : Rest cs}
    (one : ∀ v more, element cs = .ok (v, more) → weight v + more.val.length ≤ cs.length)
    (others : ∀ few : List Char, few.length < cs.length → ∀ ws more,
      elements nested few = .ok (ws, more) →
        weightOfItems ws + ws.length + more.val.length ≤ few.length + 1)
    (h : elements nested cs = .ok (vs, rest)) :
    weightOfItems vs + vs.length + rest.val.length ≤ cs.length + 1 := by
  rw [elements] at h
  simp only [bind, Except.bind] at h
  split at h
  · cases h
  · rename_i read hread
    have first := one _ _ hread
    have tail := read.2.property
    split at h
    · rename_i more hc
      have hlt := shorter hc
      split at h
      · cases h
      · rename_i readMore hmore
        cases h
        have := others _ (by omega) _ _ hmore
        simp only [weightOfItems, List.length_cons, Rest.widen]
        omega
    · split at h
      · cases h
      · cases h
        simp only [weightOfItems, List.length_cons, List.length_nil]
        omega
    · rename_i c more hcomma hc
      have hlt := shorter hc
      split at h
      · cases h
        simp only [weightOfItems, List.length_cons, List.length_nil]
        omega
      · cases h

theorem elements_ne_nil {nested : Bool} {cs : List Char} {vs : List Value} {rest : Rest cs}
    (h : elements nested cs = .ok (vs, rest)) : vs ≠ [] := by
  rw [elements] at h
  simp only [bind, Except.bind] at h
  split at h
  · cases h
  · split at h
    · split at h
      · cases h
      · cases h; simp
    · split at h
      · cases h
      · cases h; simp
    · split at h
      · cases h; simp
      · cases h

theorem weight_listBody {cs : List Char} {vs : List Value} {rest : Rest cs}
    (several : ∀ ws more, elements true cs = .ok (ws, more) →
      weightOfItems ws + ws.length + more.val.length ≤ cs.length + 1)
    (h : listBody cs = .ok (vs, rest)) : weightOfItems vs + rest.val.length ≤ cs.length := by
  rw [listBody] at h
  split at h
  · rename_i more hc
    have hlt := shorter hc
    cases h
    simp only [weightOfItems]
    omega
  · have := several _ _ h
    have := List.length_pos_iff.2 (elements_ne_nil h)
    omega

theorem weight_le (n : Nat) : ∀ cs : List Char, cs.length < n →
    (∀ v rest, element cs = .ok (v, rest) → weight v + rest.val.length ≤ cs.length) ∧
    (∀ nested vs rest, elements nested cs = .ok (vs, rest) →
      weightOfItems vs + vs.length + rest.val.length ≤ cs.length + 1) ∧
    (∀ vs rest, listBody cs = .ok (vs, rest) →
      weightOfItems vs + rest.val.length ≤ cs.length) := by
  induction n with
  | zero => intro cs h; omega
  | succ n ih =>
    intro cs h
    have one : ∀ v rest, element cs = .ok (v, rest) → weight v + rest.val.length ≤ cs.length :=
      fun v rest => weight_element fun few hf => (ih few (by omega)).2.2
    have several : ∀ nested vs rest, elements nested cs = .ok (vs, rest) →
        weightOfItems vs + vs.length + rest.val.length ≤ cs.length + 1 :=
      fun nested vs rest => weight_elements one fun few hf => (ih few (by omega)).2.1 nested
    exact ⟨one, several, fun vs rest => weight_listBody (several true)⟩

theorem weight_collect_lt {vs : List Value} (h : vs ≠ []) :
    (collect vs).weight < weightOfItems vs + vs.length := by
  match vs, h with
  | [v], _ => simp only [collect, weightOfItems, List.length_cons, List.length_nil]; omega
  | v :: w :: rest, _ => simp only [collect, weight, List.length_cons]; omega

theorem weight_parse_le {text : String} {v : Value} (h : parse text = .ok v) :
    v.weight ≤ text.length := by
  unfold parse at h
  split at h
  · cases h
    simp [weight]
  · split at h
    · rename_i vs rest heq
      cases h
      have bound := (weight_le (text.toList.length + 1) text.toList (by omega)).2.1 _ _ _ heq
      have := weight_collect_lt (elements_ne_nil heq)
      rw [← String.length_toList]
      omega
    · cases h

end Arguments

namespace Statement

theorem weight_args_lt {text : String} {statement : Statement} (h : parse text = .ok statement) :
    statement.args.weight < text.length := by
  have parts := Text.splitFirst_length '=' text.toList
  have trimmed := Text.trimChars_length_le (Text.splitFirst '=' text.toList).1
  rw [← String.length_toList]
  simp only [parse, bind, Except.bind, pure, Except.pure, throw, throwThe, MonadExceptOf.throw] at h
  split at h
  · cases h
  · rename_i nonempty
    have := List.length_pos_iff.2 nonempty
    split at h
    · cases h
    · split at h
      · cases h
        simp only [Value.weight]
        omega
      · rename_i args hargs
        split at h
        · cases h
        · rename_i v hv
          cases h
          have := Arguments.weight_parse_le hv
          rw [String.length_ofList] at this
          rw [hargs] at parts
          simp only [Option.getD_some] at parts
          simp only
          omega

end Statement

end TorrentControl
