import Mathlib.Data.List.TakeDrop
import Mathlib.Data.List.TakeWhile
import TorrentControl.Net.Url
import TorrentControl.Proofs.Net.Ipv6
import TorrentControl.Proofs.Number.Decimal

/-! # Paths and hosts of URLs

What comes out of a URL that is not of the web is encoded: a path of plain characters without segments
of points, and a host of plain characters or the address of brackets. Where the text is like this
already, it is what comes out. -/

namespace TorrentControl.Net.Url

/-! ## Encoding -/

/-- The characters that escapes are made of. -/
def escapeChars : List Char :=
  ['%', '0', '1', '2', '3', '4', '5', '6', '7', '8', '9', 'A', 'B', 'C', 'D', 'E', 'F']

/-- Percent signs and digits encode what is not plain. -/
theorem forall_mem_encode {isPlain : Char → Bool} {P : Char → Prop} [DecidablePred P]
    {cs : List Char} (hplain : ∀ c ∈ cs, isPlain c = true → P c)
    (hescapes : (escapeChars.all fun c => decide (P c)) = true) :
    ∀ c ∈ Text.Percent.encode isPlain cs, P c := by
  have hescape (c : Char) (hc : c ∈ escapeChars) : P c :=
    of_decide_eq_true (List.all_eq_true.1 hescapes c hc)
  have hdigit : ∀ n < 16, Text.Hex.digit .upper n ∈ escapeChars := by decide
  intro c hc
  obtain ⟨first, hfirst, hc⟩ := List.mem_flatMap.1 hc
  unfold Text.Percent.encodeChar at hc
  split at hc
  · rename_i hp
    cases List.mem_singleton.1 hc
    exact hplain c hfirst (by simp only [Bool.and_eq_true] at hp; exact hp.2)
  · obtain ⟨b, -, hc⟩ := List.mem_flatMap.1 hc
    have hb := b.toNat_lt
    simp only [Text.Percent.encodeByte, Text.Hex.encodeByte, List.mem_cons, List.not_mem_nil,
      or_false] at hc
    rcases hc with rfl | rfl | rfl
    · exact hescape _ (by decide)
    · exact hescape _ (hdigit _ (by omega))
    · exact hescape _ (hdigit _ (by omega))

/-- Characters that stand for themselves are left alone. -/
theorem encode_eq_self {isPlain : Char → Bool} {cs : List Char}
    (h : ∀ c ∈ cs, isPlain c = true ∧ isNoControl c = true) :
    Text.Percent.encode isPlain cs = cs := by
  induction cs with
  | nil => rfl
  | cons c cs ih =>
    obtain ⟨⟨hplain, hcontrol⟩, hrest⟩ := List.forall_mem_cons.1 h
    have hascii : c.toNat < 0x80 := by
      simp only [isNoControl, Bool.and_eq_true, decide_eq_true_eq] at hcontrol
      omega
    have hchar : Text.Percent.encodeChar isPlain c = [c] := by
      simp [Text.Percent.encodeChar, hplain, hascii]
    rw [Text.Percent.encode, List.flatMap_cons, hchar]
    exact congrArg (c :: ·) (ih hrest)

/-! ## Segments -/

/-- The segment stands neither for its own directory nor for the upper one. -/
def IsOrdinary (segment : List Char) : Prop :=
  decodePoints segment ≠ ['.'] ∧ decodePoints segment ≠ ['.', '.']

instance (segment : List Char) : Decidable (IsOrdinary segment) :=
  inferInstanceAs (Decidable (_ ∧ _))

/-- The path from the root over segments. -/
def joinPath (segments : List (List Char)) : List Char :=
  '/' :: ['/'].intercalate segments

theorem assemble_eq (kept : List (List Char)) (current : List Char) :
    assemble kept current = joinPath (kept.reverse ++ [current]) := by
  have hjoin (first : List (List Char)) : (first.flatMap fun segment => segment ++ ['/']) ++ current =
      ['/'].intercalate (first ++ [current]) := by
    induction first with
    | nil => exact List.intercalate_singleton.symm
    | cons segment first ih =>
      rw [List.flatMap_cons, List.append_assoc, ih, List.cons_append,
        Text.intercalate_cons segment (by simp), List.append_assoc, List.singleton_append]
  exact congrArg ('/' :: ·) (hjoin kept.reverse)

theorem mem_of_mem_goUp {kept : List (List Char)} {segment : List Char} (h : segment ∈ goUp kept) :
    segment ∈ kept := by
  cases kept with
  | nil => exact h
  | cons last rest =>
    rw [goUp] at h
    split at h
    · exact h
    · exact .tail _ h

/-- Ordinary segments stay as they are. -/
theorem resolve_ordinary (kept : List (List Char)) {segments : List (List Char)} (hne : segments ≠ [])
    (h : ∀ segment ∈ segments, IsOrdinary segment) :
    resolve kept segments = joinPath (kept.reverse ++ segments) := by
  induction segments generalizing kept with
  | nil => exact absurd rfl hne
  | cons segment rest ih =>
    obtain ⟨⟨hsame, hupper⟩, hrest⟩ := List.forall_mem_cons.1 h
    cases rest with
    | nil => rw [resolve, if_neg hupper, if_neg hsame, assemble_eq]
    | cons next rest =>
      rw [resolve, if_neg hupper, if_neg hsame, ih _ (List.cons_ne_nil _ _) hrest,
        List.reverse_cons, List.append_assoc, List.singleton_append]
      exact List.cons_ne_nil _ _

/-- What is left of segments are ordinary ones, or empty ones at the end. -/
theorem resolve_spec {P : List Char → Prop} (hempty : P []) {segments : List (List Char)}
    (kept : List (List Char)) (hkept : ∀ segment ∈ kept, IsOrdinary segment ∧ P segment)
    (hsegments : ∀ segment ∈ segments, P segment) :
    ∃ left, left ≠ [] ∧ (∀ segment ∈ left, IsOrdinary segment ∧ P segment) ∧
      resolve kept segments = joinPath left := by
  have hlast {kept : List (List Char)} {current : List Char}
      (hkept : ∀ segment ∈ kept, IsOrdinary segment ∧ P segment)
      (hcurrent : IsOrdinary current ∧ P current) :
      ∃ left, left ≠ [] ∧ (∀ segment ∈ left, IsOrdinary segment ∧ P segment) ∧
        assemble kept current = joinPath left := by
    refine ⟨kept.reverse ++ [current], by simp, fun segment hmem => ?_, assemble_eq kept current⟩
    rcases List.mem_append.1 hmem with hmem | hmem
    · exact hkept segment (List.mem_reverse.1 hmem)
    · exact List.mem_singleton.1 hmem ▸ hcurrent
  have hnil : IsOrdinary [] ∧ P [] := ⟨by decide, hempty⟩
  induction segments generalizing kept with
  | nil => exact hlast hkept hnil
  | cons segment rest ih =>
    obtain ⟨hsegment, hrest⟩ := List.forall_mem_cons.1 hsegments
    have hup : ∀ segment ∈ goUp kept, IsOrdinary segment ∧ P segment := fun segment hmem =>
      hkept segment (mem_of_mem_goUp hmem)
    cases rest with
    | nil =>
      rw [resolve]
      split
      · exact hlast hup hnil
      · split
        · exact hlast hkept hnil
        · rename_i hupper hsame
          exact hlast hkept ⟨⟨hsame, hupper⟩, hsegment⟩
    | cons next rest =>
      rw [resolve]
      · split
        · exact ih _ hup hrest
        · split
          · exact ih _ hkept hrest
          · rename_i hupper hsame
            exact ih _ (List.forall_mem_cons.2 ⟨⟨⟨hsame, hupper⟩, hsegment⟩, hkept⟩) hrest
      · exact List.cons_ne_nil _ _

/-! ## Paths -/

/-- Every character stands for itself, and no segment is one of points. -/
structure IsPlainPath (cs : List Char) : Prop where
  chars : ∀ c ∈ cs, isPathChar c = true
  ordinary : ∀ segment ∈ Text.split '/' cs, IsOrdinary segment

theorem isNoControl_of_isPathChar {c : Char} (h : isPathChar c = true) : isNoControl c = true := by
  rw [isPathChar, Bool.and_eq_true] at h
  exact h.1

theorem slashed_eq (cs : List Char) :
    (cs.map fun c => if false && c == '\\' then '/' else c) = cs := by
  simp

/-- **A plain path is what is left of it.** -/
theorem rootedPath_plain {cs : List Char} (h : IsPlainPath cs) :
    rootedPath false cs = String.ofList ('/' :: cs) := by
  have hencoded : (Text.split '/' cs).map (Text.Percent.encode isPathChar) = Text.split '/' cs := by
    refine (List.map_congr_left fun segment hmem => encode_eq_self fun c hc => ?_).trans
      (List.map_id _)
    have hplain := h.chars c (Text.of_mem_split hmem hc).1
    exact ⟨hplain, isNoControl_of_isPathChar hplain⟩
  rw [rootedPath]
  simp only [slashed_eq, hencoded]
  rw [resolve_ordinary [] (Text.split_ne_nil '/' cs) h.ordinary, List.reverse_nil, List.nil_append,
    joinPath, Text.intercalate_split]

/-- **Every path that is read is plain.** -/
theorem rootedPath_spec (cs : List Char) :
    ∃ rest, rootedPath false cs = String.ofList ('/' :: rest) ∧ IsPlainPath rest := by
  have hencoded : ∀ segment ∈ (Text.split '/' cs).map (Text.Percent.encode isPathChar),
      ∀ c ∈ segment, isPathChar c = true ∧ c ≠ '/' := by
    intro segment hmem
    obtain ⟨piece, hpiece, rfl⟩ := List.mem_map.1 hmem
    exact forall_mem_encode (fun c hc hplain => ⟨hplain, (Text.of_mem_split hpiece hc).2⟩) (by decide)
  obtain ⟨left, hne, hleft, hresolve⟩ :=
    resolve_spec (P := fun segment => ∀ c ∈ segment, isPathChar c = true ∧ c ≠ '/')
      nofun [] nofun hencoded
  refine ⟨['/'].intercalate left, ?_, fun c hc => ?_, ?_⟩
  · rw [rootedPath]
    simp only [slashed_eq]
    rw [hresolve, joinPath]
  · rcases Text.of_mem_intercalate hc with rfl | ⟨segment, hmem, hc⟩
    · decide
    · exact ((hleft segment hmem).2 c hc).1
  · have hslash : ∀ segment ∈ left, '/' ∉ segment := fun segment hmem hc =>
      ((hleft segment hmem).2 '/' hc).2 rfl
    rw [Text.split_intercalate_pieces hne hslash]
    exact fun segment hmem => (hleft segment hmem).1

/-! ## Hosts -/

/-- Every character may stand in a host and stands for itself. -/
structure IsPlainHost (cs : List Char) : Prop where
  ne_nil : cs ≠ []
  chars : ∀ c ∈ cs, isNoControl c = true ∧ isBadInHost c = false

/-- The text of an address in brackets. -/
def bracketed (groups : List Nat) : List Char :=
  '[' :: (Ipv6.write groups).toList ++ [']']

/-- **Every host that is read is plain, or an address in brackets.** -/
theorem readHost_spec {cs : List Char} {host : String} (h : readHost false cs = .ok host)
    (hne : host ≠ "") : IsPlainHost host.toList ∨
      ∃ groups, Ipv6.IsAddress groups ∧ host.toList = bracketed groups := by
  unfold readHost at h
  split at h
  · split at h
    · split at h
      · rename_i groups hgroups
        cases h
        exact .inr ⟨groups, Ipv6.isAddress_of_read? hgroups, by simp [bracketed]⟩
      · cases h
    · cases h
  · split at h
    · rename_i hweb
      cases hweb
    · split at h
      · cases h
      · rename_i hbad
        cases h
        refine .inl ⟨by simpa using hne, ?_⟩
        rw [String.toList_ofList]
        refine forall_mem_encode (fun c hc hplain => ⟨hplain, ?_⟩) (by decide)
        simp only [Bool.not_eq_true, List.any_eq_false] at hbad
        simpa using hbad c hc

theorem readHost_plain {cs : List Char} (h : IsPlainHost cs) :
    readHost false cs = .ok (String.ofList cs) := by
  have hgood : cs.any isBadInHost = false := by
    rw [List.any_eq_false]
    exact fun c hc => by simp [(h.chars c hc).2]
  have hencode : Text.Percent.encode isNoControl cs = cs :=
    encode_eq_self fun c hc => ⟨(h.chars c hc).1, (h.chars c hc).1⟩
  unfold readHost
  split
  · exact absurd (h.chars '[' (.head _)).2 (by decide)
  · rw [if_neg (by decide), hgood, hencode]
    rfl

theorem readHost_bracketed {groups : List Nat} (h : Ipv6.IsAddress groups) :
    readHost false (bracketed groups) = .ok (String.ofList (bracketed groups)) := by
  have hread := Ipv6.read?_write h
  simp only [bracketed, List.cons_append, readHost, List.reverse_append, List.reverse_cons,
    List.reverse_nil, List.nil_append, List.reverse_reverse, hread]
  simp [String.append_assoc]

/-! ## Authorities -/

theorem beforeQuery_plain {cs : List Char} (h : ∀ c ∈ cs, isPathChar c = true) :
    beforeQuery cs = cs := by
  refine List.takeWhile_eq_self_iff.2 fun c hc => ?_
  have hplain := h c hc
  rw [Bool.and_eq_true, bne_iff_ne, bne_iff_ne]
  constructor <;> rintro rfl <;> exact absurd hplain (by decide)

/-- Without an authority there is a path only. -/
theorem readAuthority_path (scheme : String) {cs : List Char} (h : IsPlainPath cs) :
    readAuthority false scheme ('/' :: cs) =
      .ok ⟨scheme, none, none, String.ofList ('/' :: cs)⟩ := by
  have hpath : pathAfterAuthority false ('/' :: cs) = String.ofList ('/' :: cs) := by
    have hquery : beforeQuery ('/' :: cs) = '/' :: cs :=
      beforeQuery_plain (List.forall_mem_cons.2 ⟨by decide, h.chars⟩)
    rw [pathAfterAuthority, hquery]
    exact rootedPath_plain h
  have hspan : ('/' :: cs).span (fun c => !endsAuthority false c) = ([], '/' :: cs) := by
    simp [List.span_eq_takeWhile_dropWhile, endsAuthority]
  rw [← hpath]
  unfold readAuthority
  rw [hspan]
  rfl

theorem endsAuthority_eq_false_iff {c : Char} :
    endsAuthority false c = false ↔ c ≠ '/' ∧ c ≠ '?' ∧ c ≠ '#' := by
  simp [endsAuthority, and_assoc]

/-- A host and a port, read one after the other. -/
theorem readAuthority_host (scheme : String) {host : List Char} (port : UInt16) (hne : host ≠ [])
    (hends : ∀ c ∈ host, endsAuthority false c = false ∧ c ≠ '@')
    (hsplit : ∀ rest, splitHost false (host ++ ':' :: rest) = (host, ':' :: rest))
    (hread : readHost false host = .ok (String.ofList host)) :
    readAuthority false scheme (host ++ ':' :: Nat.toDigits 10 port.toNat) =
      .ok ⟨scheme, some (String.ofList host), some port, ""⟩ := by
  have hdigits : ∀ c ∈ Nat.toDigits 10 port.toNat, Number.Decimal.isDigit c = true :=
    fun c => Number.Decimal.isDigit_of_mem_toDigits
  have hdigit : ∀ c ∈ Nat.toDigits 10 port.toNat, endsAuthority false c = false ∧ c ≠ '@' := by
    intro c hc
    rw [endsAuthority_eq_false_iff]
    refine ⟨⟨?_, ?_, ?_⟩, ?_⟩ <;> rintro rfl <;> exact absurd (hdigits _ hc) (by decide)
  have hspan : (host ++ ':' :: Nat.toDigits 10 port.toNat).span (fun c => !endsAuthority false c) =
      (host ++ ':' :: Nat.toDigits 10 port.toNat, []) := by
    have hall : ∀ c ∈ host ++ ':' :: Nat.toDigits 10 port.toNat,
        (!endsAuthority false c) = true := by
      intro c hc
      rw [Bool.not_eq_true']
      rcases List.mem_append.1 hc with hc | hc
      · exact (hends c hc).1
      · rcases List.mem_cons.1 hc with rfl | hc
        · rfl
        · exact (hdigit c hc).1
    rw [List.span_eq_takeWhile_dropWhile, List.takeWhile_eq_self_iff.2 hall,
      List.dropWhile_eq_nil_iff.2 hall]
  have huser : splitUser (host ++ ':' :: Nat.toDigits 10 port.toNat) =
      (none, host ++ ':' :: Nat.toDigits 10 port.toNat) := by
    have hall : ∀ c ∈ (host ++ ':' :: Nat.toDigits 10 port.toNat).reverse, (c != '@') = true := by
      intro c hc
      rw [bne_iff_ne]
      rcases List.mem_append.1 (List.mem_reverse.1 hc) with hc | hc
      · exact (hends c hc).2
      · rcases List.mem_cons.1 hc with rfl | hc
        · decide
        · exact (hdigit c hc).2
    rw [splitUser, List.dropWhile_eq_nil_iff.2 hall]
  have hport : readPort (Nat.toDigits 10 port.toNat) = .ok (some port, []) := by
    have hlt := port.toNat_lt
    rw [readPort, List.span_eq_takeWhile_dropWhile, List.takeWhile_eq_self_iff.2 hdigits,
      List.dropWhile_eq_nil_iff.2 hdigits]
    dsimp only
    rw [Number.Decimal.ofDigits_toDigits, if_neg (by simp; omega), if_neg Nat.toDigits_ne_nil,
      UInt16.ofNat_toNat]
  have hname : String.ofList host ≠ "" := by simpa using hne
  unfold readAuthority
  rw [hspan]
  dsimp only
  rw [huser]
  dsimp only
  rw [hsplit]
  dsimp only
  rw [hread]
  simp [hport, hname, bind, Except.bind, pathAfterAuthority, beforeQuery]
  rfl

theorem pathAfterAuthority_spec (cs : List Char) : pathAfterAuthority false cs ≠ "" →
    ∃ rest, pathAfterAuthority false cs = String.ofList ('/' :: rest) ∧ IsPlainPath rest := by
  unfold pathAfterAuthority
  split
  · exact fun _ => rootedPath_spec _
  · exact fun h => absurd rfl h
  · exact fun _ => rootedPath_spec _
  · exact fun _ => rootedPath_spec _

/-- What is read has a host that was read, and the path behind it. -/
theorem of_readAuthority {scheme : String} {cs : List Char} {url : Url}
    (h : readAuthority false scheme cs = .ok url) : ∃ place host port tail,
      readHost false place = .ok host ∧
        url = ⟨scheme, if host = "" then none else some host, port, pathAfterAuthority false tail⟩ := by
  simp only [readAuthority, bind, Except.bind, throw, throwThe, MonadExceptOf.throw, pure,
    Except.pure, Bool.false_and, Bool.false_eq_true, if_false] at h
  split at h
  · cases h
  · split at h
    · cases h
    · rename_i host hhost
      split at h
      · cases h
      · split at h
        · cases h
          exact ⟨_, _, _, _, hhost, rfl⟩
        · split at h
          · cases h
          · cases h
            exact ⟨_, _, _, _, hhost, rfl⟩

theorem scheme_of_readAuthority {web : Bool} {scheme : String} {cs : List Char} {url : Url}
    (h : readAuthority web scheme cs = .ok url) : url.scheme = scheme := by
  simp only [readAuthority, bind, Except.bind, throw, throwThe, MonadExceptOf.throw, pure,
    Except.pure] at h
  repeat' split at h
  all_goals first | cases h; rfl | cases h

/-- **What is read of an authority is a plain path, if any, and a plain host or an address, if any.** -/
theorem readAuthority_spec {scheme : String} {cs : List Char} {url : Url}
    (h : readAuthority false scheme cs = .ok url) : url.scheme = scheme ∧
      (url.path ≠ "" → ∃ rest, url.path = String.ofList ('/' :: rest) ∧ IsPlainPath rest) ∧
      ∀ host, url.host = some host → IsPlainHost host.toList ∨
        ∃ groups, Ipv6.IsAddress groups ∧ host.toList = bracketed groups := by
  obtain ⟨place, host, port, tail, hhost, rfl⟩ := of_readAuthority h
  refine ⟨rfl, pathAfterAuthority_spec tail, fun name hname => ?_⟩
  dsimp only at hname
  split at hname
  · cases hname
  · rename_i hne
    cases hname
    exact readHost_spec hhost hne

/-! ## Whole URLs -/

/-- What counts of a text, from a place on before which everything counts. -/
def cleaned (cs : List Char) : List Char :=
  (cs.reverse.dropWhile isTrimmed).reverse.filter fun c => !isLineChar c

theorem dropWhile_isTrimmed {cs : List Char} (h : ∀ c ∈ cs, isTrimmed c = false) :
    cs.dropWhile isTrimmed = cs := by
  cases cs with
  | nil => rfl
  | cons c cs => rw [List.dropWhile_cons_of_neg (by simp [h c (.head _)])]

theorem filter_isLineChar {cs : List Char} (h : ∀ c ∈ cs, isTrimmed c = false) :
    (cs.filter fun c => !isLineChar c) = cs := by
  refine List.filter_eq_self.2 fun c hc => ?_
  rw [Bool.not_eq_true', Bool.eq_false_iff]
  intro hline
  simp only [isLineChar, Bool.or_eq_true, beq_iff_eq] at hline
  rcases hline with (rfl | rfl) | rfl <;> exact absurd (h _ hc) (by decide)

theorem cleaned_eq_self {cs : List Char} (h : ∀ c ∈ cs, isTrimmed c = false) : cleaned cs = cs := by
  rw [cleaned, dropWhile_isTrimmed fun c hc => h c (List.mem_reverse.1 hc), List.reverse_reverse,
    filter_isLineChar h]

theorem relevant_append (start : List Char) (hne : start ≠ []) (hstart : start.any isTrimmed = false)
    {text : String} {cs : List Char} (htext : text.toList = start ++ cs) :
    relevant text = start ++ cleaned cs := by
  have h (c : Char) (hc : c ∈ start) : isTrimmed c = false := by
    simpa using List.any_eq_false.1 hstart c hc
  have hfront : (start ++ cs).dropWhile isTrimmed = start ++ cs := by
    obtain ⟨c, rest, rfl⟩ := List.exists_cons_of_ne_nil hne
    exact List.dropWhile_cons_of_neg (by simp [h c (.head _)])
  have hback : (cs.reverse ++ start.reverse).dropWhile isTrimmed =
      cs.reverse.dropWhile isTrimmed ++ start.reverse := by
    rw [List.dropWhile_append, dropWhile_isTrimmed fun c hc => h c (List.mem_reverse.1 hc)]
    split
    · rename_i hempty
      rw [List.isEmpty_iff.1 hempty, List.nil_append]
    · rfl
  rw [relevant, htext, hfront, List.reverse_append, hback, List.reverse_append, List.reverse_reverse,
    List.filter_append, filter_isLineChar h]
  rfl

theorem schemeOf?_append (scheme : List Char) (hhead : scheme.head?.any isAsciiLetter = true)
    (hchars : scheme.all isSchemeChar = true) (hlower : scheme.map Char.toLower = scheme)
    (cs : List Char) : schemeOf? (scheme ++ ':' :: cs) = some (String.ofList scheme, cs) := by
  have hspan : (scheme ++ ':' :: cs).span isSchemeChar = (scheme, ':' :: cs) := by
    have hcolon : isSchemeChar ':' = false := by decide
    have h := List.all_eq_true.1 hchars
    rw [List.span_eq_takeWhile_dropWhile, List.takeWhile_append_of_pos h,
      List.dropWhile_append_of_pos h, List.takeWhile_cons_of_neg (by simp [hcolon]),
      List.dropWhile_cons_of_neg (by simp [hcolon]), List.append_nil]
  have hsame : (String.ofList scheme).toLower = String.ofList scheme := by
    apply String.toList_injective
    change ((String.ofList scheme).map Char.toLower).toList = _
    rw [String.toList_map, String.toList_ofList, hlower]
  rw [schemeOf?, hspan]
  cases scheme with
  | nil => cases hhead
  | cons first scheme => exact (if_pos hhead).trans (by rw [hsame])

/-- Two slashes stand before an authority. -/
theorem parse_authority {scheme text : String} {cs : List Char} (hfile : scheme ≠ "file")
    (hweb : isWeb scheme = false)
    (hscheme : schemeOf? (relevant text) = some (scheme, '/' :: '/' :: cs)) :
    parse text = readAuthority false scheme cs := by
  rw [parse, hscheme]
  simp [hfile, hweb]

theorem parse_unix (path : String) :
    parse ("unix://" ++ path) = readAuthority false "unix" (cleaned path.toList) := by
  refine parse_authority (by decide) (by decide) ?_
  rw [relevant_append "unix://".toList (by decide) (by decide) String.toList_append]
  exact schemeOf?_append "unix".toList (by decide) (by decide) (by decide)
    ('/' :: '/' :: cleaned path.toList)

theorem parse_tcp (place : String) :
    parse ("tcp://" ++ place) = readAuthority false "tcp" (cleaned place.toList) := by
  refine parse_authority (by decide) (by decide) ?_
  rw [relevant_append "tcp://".toList (by decide) (by decide) String.toList_append]
  exact schemeOf?_append "tcp".toList (by decide) (by decide) (by decide)
    ('/' :: '/' :: cleaned place.toList)

/-- What does not start with a slash does not come to do so. -/
theorem head?_encode_ne {cs : List Char} (h : cs.head? ≠ some '/') :
    (Text.Percent.encode isNoControl cs).head? ≠ some '/' := by
  cases cs with
  | nil => exact nofun
  | cons c cs =>
    rw [Text.Percent.encode, List.flatMap_cons, Text.Percent.encodeChar]
    split
    · exact h
    · obtain ⟨b, bytes, hbytes⟩ : ∃ b bytes, Text.Utf8.encodeChar c = b :: bytes := by
        unfold Text.Utf8.encodeChar
        dsimp only
        split
        · exact ⟨_, _, rfl⟩
        · split
          · exact ⟨_, _, rfl⟩
          · split <;> exact ⟨_, _, rfl⟩
      rw [hbytes, List.flatMap_cons]
      exact nofun

/-- **What is read of a text whose scheme is not of the web.** The host is plain or an address, and a
path from the root is plain. -/
theorem parse_spec {text : String} {url : Url} (h : parse text = .ok url) (hfile : url.scheme ≠ "file")
    (hweb : isWeb url.scheme = false) :
    (url.path.toList.head? = some '/' →
      ∃ rest, url.path = String.ofList ('/' :: rest) ∧ IsPlainPath rest) ∧
      ∀ host, url.host = some host → IsPlainHost host.toList ∨
        ∃ groups, Ipv6.IsAddress groups ∧ host.toList = bracketed groups := by
  unfold parse at h
  split at h
  · cases h
  · rename_i scheme rest hscheme
    split at h
    · simp only [bind, Except.bind, pure, Except.pure] at h
      split at h
      · cases h
      · rename_i heq _ _ _
        cases h
        exact absurd heq hfile
    · split at h
      · rename_i hisWeb
        rw [← scheme_of_readAuthority h, hweb] at hisWeb
        cases hisWeb
      · split at h
        · obtain ⟨-, hpath, hhost⟩ := readAuthority_spec h
          exact ⟨fun hhead => hpath fun hempty => by simp [hempty] at hhead, hhost⟩
        · cases h
          exact ⟨fun _ => rootedPath_spec _, nofun⟩
        · rename_i hslash
          cases h
          refine ⟨fun hhead => ?_, nofun⟩
          rw [String.toList_ofList] at hhead
          refine absurd hhead (head?_encode_ne ?_)
          rw [beforeQuery, List.head?_takeWhile]
          intro hfirst
          obtain ⟨hfirst, -⟩ := Option.filter_eq_some_iff.1 hfirst
          obtain ⟨more, rfl⟩ := List.head?_eq_some_iff.1 hfirst
          exact hslash more rfl

end TorrentControl.Net.Url
