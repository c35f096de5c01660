import TorrentControl.Proofs.Statement.Grammar
import TorrentControl.Script

/-! # Scripts are cut between elements

The cut of a script looks for quotes and braces anywhere, and the reader of arguments only where an
element starts. The two agree on derivations in which no bare element has a mark of the other kind:
the cut comes out of each element as it went in, and takes all of it into the same piece. -/

namespace TorrentControl

namespace Script

open Arguments
open Text (isBlank)

/-! ## Pieces -/

/-- Puts a text in front of the first of several pieces. -/
def attachAll (cs : List Char) (pieces : List (List Char)) : List (List Char) :=
  cs.foldr attach pieces

theorem attachAll_cons (cs piece : List Char) (pieces : List (List Char)) :
    attachAll cs (piece :: pieces) = (cs ++ piece) :: pieces := by
  induction cs with
  | nil => rfl
  | cons c cs ih => rw [attachAll, List.foldr_cons, ← attachAll, ih]; rfl

/-- The cut takes all of `cs` into one piece, and then `depth` braces and `mode` have become others. -/
def Passes (depth : Nat) (mode : Mode) (cs : List Char) (depth' : Nat) (mode' : Mode) : Prop :=
  ∀ rest, cut depth mode (cs ++ rest) = attachAll cs <$> cut depth' mode' rest

section Passes

variable {depth depth' depth'' : Nat} {mode mode' mode'' : Mode} {cs ds : List Char}

theorem passes_nil : Passes depth mode [] depth mode := by
  intro rest
  rw [List.nil_append]
  cases cut depth mode rest <;> rfl

theorem Passes.append (h : Passes depth mode cs depth' mode')
    (h' : Passes depth' mode' ds depth'' mode'') : Passes depth mode (cs ++ ds) depth'' mode'' := by
  intro rest
  rw [List.append_assoc, h, h']
  cases cut depth'' mode'' rest with
  | error fault => rfl
  | ok pieces => exact congrArg Except.ok (List.foldr_append ..).symm

theorem Passes.cons {c : Char} (h : Passes depth mode [c] depth' mode')
    (h' : Passes depth' mode' cs depth'' mode'') : Passes depth mode (c :: cs) depth'' mode'' :=
  h.append h'

/-- A character that marks nothing where no quote is open. -/
def isPlain (c : Char) : Bool :=
  c != '"' && c != '\x7b' && c != '\x7d' && c != ';'

theorem passes_plainChar {c : Char} (h : isPlain c = true) :
    Passes depth .plain [c] depth .plain := by
  intro rest
  simp only [isPlain, Bool.and_eq_true, bne_iff_ne] at h
  obtain ⟨⟨⟨hquote, hopen⟩, hclose⟩, hend⟩ := h
  simp only [List.singleton_append, cut, hquote, hopen, hclose, hend, false_and, if_false]
  rfl

theorem passes_plain (h : ∀ c ∈ cs, isPlain c = true) : Passes depth .plain cs depth .plain := by
  induction cs with
  | nil => exact passes_nil
  | cons c cs ih => exact (passes_plainChar (h c (.head _))).cons (ih fun d hd => h d (.tail _ hd))

theorem passes_quoted (qs : List QuotedChar) :
    Passes depth .plain ('"' :: (qs.flatMap QuotedChar.chars ++ ['"'])) depth .plain := by
  have inside (qs : List QuotedChar) :
      Passes depth .quoted (qs.flatMap QuotedChar.chars) depth .quoted := by
    induction qs with
    | nil => exact passes_nil
    | cons q qs ih =>
      rw [List.flatMap_cons]
      refine .append ?_ ih
      cases q with
      | plain c hc =>
        intro rest
        simp only [QuotedChar.chars, List.singleton_append, cut, hc.1, hc.2, if_false]
        rfl
      | escaped c =>
        have hslash : Passes depth .quoted ['\\'] depth .escaped := fun _ => rfl
        have hchar : Passes depth .escaped [c] depth .quoted := fun _ => rfl
        exact hslash.cons hchar
  have hopen : Passes depth .plain ['"'] depth .quoted := fun _ => rfl
  have hclose : Passes depth .quoted ['"'] depth .plain := fun _ => rfl
  exact hopen.cons ((inside qs).append hclose)

theorem Passes.braces (h : Passes (depth + 1) .plain cs (depth + 1) .plain) :
    Passes depth .plain ('\x7b' :: (cs ++ ['\x7d'])) depth .plain := by
  have hopen : Passes depth .plain ['\x7b'] (depth + 1) .plain := fun _ => rfl
  have hclose : Passes (depth + 1) .plain ['\x7d'] depth .plain := fun _ => rfl
  exact hopen.cons (h.append hclose)

end Passes

/-- A text that leaves nothing open is one piece. -/
theorem cut_of_passes {cs : List Char} (h : Passes 0 .plain cs 0 .plain) :
    cut 0 .plain cs = .ok [cs] := by
  have hcut := h []
  rw [List.append_nil] at hcut
  rw [hcut]
  exact congrArg Except.ok ((attachAll_cons ..).trans (by rw [List.append_nil]))

end Script

namespace Arguments

open Script
open Text (isBlank)

/-! ## Derivations -/

mutual
/-- No bare element has a mark of scripts in it. -/
def Element.Tidy : Element → Prop
  | .quoted _ _ _ => True
  | .braces _ inner _ => inner.Tidy
  | .bare _ run => ∀ c ∈ run.val, isPlain c = true

def Inner.Tidy : Inner → Prop
  | .none _ => True
  | .some elements => elements.Tidy

def Elements.Tidy : Elements → Prop
  | .one e => e.Tidy
  | .more e rest => e.Tidy ∧ rest.Tidy
end

theorem isPlain_of_blank {c : Char} (h : isBlank c = true) : isPlain c = true := by
  by_contra hmark
  simp only [isPlain, Bool.and_eq_true, bne_iff_ne, ne_eq, not_and_or, not_not] at hmark
  rcases hmark with ((rfl | rfl) | rfl) | rfl <;> exact absurd h (by decide)

theorem Blanks.passes (blanks : Blanks) (depth : Nat) :
    Passes depth .plain blanks.val depth .plain :=
  passes_plain fun c hc => isPlain_of_blank (blanks.property c hc)

mutual
/-- The cut of a script comes out of a tidy element as it went in. -/
theorem Element.passes (depth : Nat) : ∀ {e : Element}, e.Tidy →
    Passes depth .plain e.chars depth .plain
  | .quoted lead qs trail, _ => by
    have h := ((lead.passes depth).append (passes_quoted qs)).append (trail.passes depth)
    simpa [Element.chars] using h
  | .braces lead inner trail, hinner => by
    have h := ((lead.passes depth).append (Inner.passes (depth + 1) hinner).braces).append
      (trail.passes depth)
    simpa [Element.chars] using h
  | .bare lead run, hrun => (lead.passes depth).append (passes_plain hrun)

theorem Inner.passes (depth : Nat) : ∀ {i : Inner}, i.Tidy →
    Passes depth .plain i.chars depth .plain
  | .none blanks, _ => blanks.passes depth
  | .some _, h => Elements.passes depth h

theorem Elements.passes (depth : Nat) : ∀ {es : Elements}, es.Tidy →
    Passes depth .plain es.chars depth .plain
  | .one _, h => Element.passes depth h
  | .more _ _, h =>
    (Element.passes depth h.1).append ((passes_plainChar rfl).cons (Elements.passes depth h.2))
end

end Arguments

end TorrentControl
