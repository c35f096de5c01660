import TorrentControl.Endpoint
import TorrentControl.Proofs.Net.Url

/-! # Endpoints and their texts

The text of an endpoint has its path or host as it is, and reading it reads a URL. So an endpoint is
read back from its text exactly if nothing in it needs to be encoded or resolved. Configuration may
set any path and any host in a table, and a URL without slashes behind the scheme gives a path that
does not start at the root; such endpoints are not read back. -/

namespace TorrentControl.Endpoint

open Net (Url)
open Net.Url (IsPlainPath IsPlainHost)

/-! ## Endpoints that are as a URL has them -/

/-- The path goes from the root over plain segments, and the host is plain or an address in brackets,
in its shortest form. -/
def IsPlain : Endpoint → Prop
  | .unix path => ∃ rest, rest ≠ [] ∧ path.toList = '/' :: rest ∧ IsPlainPath rest
  | .tcp host _ => IsPlainHost host.toList ∨
    ∃ groups, Net.Ipv6.IsAddress groups ∧ host.toList = Net.Url.bracketed groups

/-- The endpoint of a URL that was read of a text. -/
def ofUrl (text : String) (url : Url) : Except EndpointError Endpoint :=
  if url.scheme = "unix" then
    if url.path = "" ∨ url.path = "/" then .error (.missingUnixPath text) else .ok (.unix url.path)
  else if url.scheme = "tcp" then
    match url.host, url.port with
    | none, _ => .error (.missingHost text)
    | _, none => .error (.missingPort text)
    | some host, some port => .ok (.tcp host port)
  else .error (.unsupportedScheme url.scheme)

theorem parse_eq (text : String) :
    parse text = Except.mapError .url (Net.Url.parse text) >>= ofUrl text := by
  cases h : Net.Url.parse text with
  | error c =>
    rw [parse, h]
    rfl
  | ok url =>
    rw [parse, h]
    change _ = ofUrl text url
    unfold ofUrl
    rfl

/-- What a URL must be for an endpoint to be read of it. -/
inductive IsOf (url : Url) : Endpoint → Prop
  | unix : url.scheme = "unix" → url.path ≠ "" → url.path ≠ "/" → IsOf url (.unix url.path)
  | tcp {host : String} {port : UInt16} : url.scheme = "tcp" → url.host = some host →
      url.port = some port → IsOf url (.tcp host port)

theorem ofUrl_eq_ok_iff {text : String} {url : Url} {e : Endpoint} :
    ofUrl text url = .ok e ↔ IsOf url e := by
  constructor
  · intro h
    unfold ofUrl at h
    split at h
    · rename_i hunix
      split at h
      · cases h
      · rename_i hpath
        rw [not_or] at hpath
        cases h
        exact .unix hunix hpath.1 hpath.2
    · split at h
      · rename_i htcp
        split at h
        · cases h
        · cases h
        · rename_i hhost hport
          cases h
          exact .tcp htcp hhost hport
      · cases h
  · rintro (⟨hunix, hempty, hroot⟩ | ⟨htcp, hhost, hport⟩)
    · rw [ofUrl, if_pos hunix, if_neg (not_or.2 ⟨hempty, hroot⟩)]
    · rw [ofUrl, if_neg (by rw [htcp]; decide), if_pos htcp, hhost, hport]

theorem parse_eq_ok_iff {text : String} {e : Endpoint} :
    parse text = .ok e ↔ ∃ url, Net.Url.parse text = .ok url ∧ IsOf url e := by
  rw [parse_eq]
  cases Net.Url.parse text with
  | error c => exact ⟨nofun, fun ⟨_, h, _⟩ => nomatch h⟩
  | ok url =>
    refine ofUrl_eq_ok_iff.trans ⟨fun h => ⟨url, rfl, h⟩, ?_⟩
    rintro ⟨_, ⟨⟩, h⟩
    exact h

/-- What is read of a URL is plain, unless it is a path that does not start at the root. -/
theorem isPlain_of_parse {text : String} {e : Endpoint} (h : parse text = .ok e)
    (hroot : ∀ path, e = .unix path → path.toList.head? = some '/') : e.IsPlain := by
  obtain ⟨url, hurl, ⟨hscheme, -, hslash⟩ | ⟨hscheme, hhost, -⟩⟩ := parse_eq_ok_iff.1 h
  · obtain ⟨hpath, -⟩ := Net.Url.parse_spec hurl (by rw [hscheme]; decide) (by rw [hscheme]; decide)
    obtain ⟨rest, hrest, hplain⟩ := hpath (hroot _ rfl)
    refine ⟨rest, ?_, by rw [hrest, String.toList_ofList], hplain⟩
    rintro rfl
    exact hslash hrest
  · obtain ⟨-, hhosts⟩ := Net.Url.parse_spec hurl (by rw [hscheme]; decide)
      (by rw [hscheme]; decide)
    exact hhosts _ hhost

/-! ## Reading texts back -/

/-- The characters of a plain host, and those of an address in brackets, do not end the host. -/
structure IsWhole (host : List Char) : Prop where
  ne_nil : host ≠ []
  chars : ∀ c ∈ host, Net.Url.isTrimmed c = false ∧ Net.Url.endsAuthority false c = false ∧ c ≠ '@'
  split (rest : List Char) : Net.Url.splitHost false (host ++ ':' :: rest) = (host, ':' :: rest)
  read : Net.Url.readHost false host = .ok (String.ofList host)

theorem not_trimmed_of_isNoControl {c : Char} (h : Net.Url.isNoControl c = true) (hc : c ≠ ' ') :
    Net.Url.isTrimmed c = false := by
  have hne : c.toNat ≠ 0x20 := fun heq => hc (Char.toNat_inj.1 heq)
  simp only [Net.Url.isNoControl, Bool.and_eq_true, decide_eq_true_eq] at h
  simp only [Net.Url.isTrimmed, decide_eq_false_iff_not]
  omega

theorem splitHost_plain {host : List Char} (h : ∀ c ∈ host, c ≠ ':' ∧ c ≠ '[') (rest : List Char) :
    Net.Url.splitHost false (host ++ ':' :: rest) = (host, ':' :: rest) := by
  induction host with
  | nil => rfl
  | cons c host ih =>
    obtain ⟨⟨hcolon, hopen⟩, hhost⟩ := List.forall_mem_cons.1 h
    have hmore := ih hhost
    rw [List.cons_append, Net.Url.splitHost]
    simp [hcolon, hopen, hmore]

/-- Inside brackets a colon does not end the host. -/
theorem splitHost_inside {inner : List Char} (h : ']' ∉ inner) (rest : List Char) :
    Net.Url.splitHost true (inner ++ ']' :: ':' :: rest) = (inner ++ [']'], ':' :: rest) := by
  induction inner with
  | nil => rfl
  | cons c inner ih =>
    rw [List.mem_cons, not_or] at h
    have hmore := ih h.2
    have hc : (c != ']') = true := bne_iff_ne.2 (Ne.symm h.1)
    rw [List.cons_append, Net.Url.splitHost]
    simp [hc, hmore]

theorem isWhole_of_isPlainHost {host : List Char} (h : IsPlainHost host) : IsWhole host := by
  have hne {c other : Char} (hc : c ∈ host) (hother : Net.Url.isBadInHost other = true) :
      c ≠ other := by
    rintro rfl
    rw [(h.chars _ hc).2] at hother
    cases hother
  constructor
  case ne_nil => exact h.ne_nil
  case chars =>
    intro c hc
    rw [Net.Url.endsAuthority_eq_false_iff]
    exact ⟨not_trimmed_of_isNoControl (h.chars c hc).1 (hne hc (by decide)),
      ⟨hne hc (by decide), hne hc (by decide), hne hc (by decide)⟩, hne hc (by decide)⟩
  case split => exact splitHost_plain fun c hc => ⟨hne hc (by decide), hne hc (by decide)⟩
  case read => exact Net.Url.readHost_plain h

theorem isWhole_bracketed {groups : List Nat} (h : Net.Ipv6.IsAddress groups) :
    IsWhole (Net.Url.bracketed groups) := by
  have hne {c other : Char} (hc : c ∈ (Net.Ipv6.write groups).toList)
      (hother : Text.Hex.digitValue? other = none) (hcolon : other ≠ ':') : c ≠ other := by
    rintro rfl
    rcases Net.Ipv6.of_mem_write hc with hdigit | hdigit
    · rw [hother] at hdigit
      cases hdigit
    · exact hcolon hdigit
  constructor
  case ne_nil => exact List.cons_ne_nil _ _
  case chars =>
    intro c hc
    rw [Net.Url.bracketed, List.cons_append, List.mem_cons, List.mem_append, List.mem_singleton] at hc
    rcases hc with rfl | hc | rfl
    · decide
    · have hlow : ∀ k ≤ 0x20, Text.Hex.digitValue? (Char.ofNat k) = none ∧ Char.ofNat k ≠ ':' := by
        decide
      refine ⟨?_, ?_, hne hc (by decide) (by decide)⟩
      · rw [Net.Url.isTrimmed, decide_eq_false_iff_not]
        intro hle
        obtain ⟨hdigit, hcolon⟩ := hlow c.toNat hle
        exact hne hc hdigit hcolon (Char.ofNat_toNat c).symm
      · rw [Net.Url.endsAuthority_eq_false_iff]
        exact ⟨hne hc (by decide) (by decide), hne hc (by decide) (by decide),
          hne hc (by decide) (by decide)⟩
    · decide
  case split =>
    intro rest
    have hclose : ']' ∉ (Net.Ipv6.write groups).toList := fun hmem =>
      hne hmem (by decide) (by decide) rfl
    simp [Net.Url.bracketed, Net.Url.splitHost, splitHost_inside hclose]
  case read => exact Net.Url.readHost_bracketed h

/-- A host that is whole is read, with its port. -/
theorem parse_tcp_of_isWhole {host : String} (h : IsWhole host.toList) (port : UInt16) :
    parse (tcp host port).text = .ok (.tcp host port) := by
  have hplace : (host ++ ":" ++ toString port.toNat).toList =
      host.toList ++ ':' :: Nat.toDigits 10 port.toNat := by
    rw [String.toList_append, String.toList_append, List.append_assoc]
    change host.toList ++ (':' :: (String.ofList (Nat.toDigits 10 port.toNat)).toList) = _
    rw [String.toList_ofList]
  have hclean : Net.Url.cleaned (host ++ ":" ++ toString port.toNat).toList =
      host.toList ++ ':' :: Nat.toDigits 10 port.toNat := by
    rw [hplace]
    refine Net.Url.cleaned_eq_self fun c hc => ?_
    rcases List.mem_append.1 hc with hc | hc
    · exact (h.chars c hc).1
    · rcases List.mem_cons.1 hc with rfl | hc
      · decide
      · have hdigit := Number.Decimal.isDigit_of_mem_toDigits hc
        simp only [Number.Decimal.isDigit, Bool.and_eq_true, decide_eq_true_eq] at hdigit
        have hlow : 48 ≤ c.toNat := hdigit.1
        rw [Net.Url.isTrimmed, decide_eq_false_iff_not]
        omega
  have hauthority := Net.Url.readAuthority_host "tcp" port h.ne_nil (fun c hc => (h.chars c hc).2)
    h.split h.read
  have htext : (tcp host port).text = "tcp://" ++ (host ++ ":" ++ toString port.toNat) := by
    simp [text, String.append_assoc]
  have hurl : Net.Url.parse (tcp host port).text = .ok ⟨"tcp", some host, some port, ""⟩ := by
    rw [htext, Net.Url.parse_tcp, hclean, hauthority, String.ofList_toList]
  exact parse_eq_ok_iff.2 ⟨_, hurl, .tcp rfl rfl rfl⟩

theorem parse_text_of_isPlain {e : Endpoint} (h : e.IsPlain) : parse e.text = .ok e := by
  cases e with
  | unix path =>
    obtain ⟨rest, hne, hpath, hplain⟩ := h
    have hclean : Net.Url.cleaned path.toList = '/' :: rest := by
      rw [hpath]
      refine Net.Url.cleaned_eq_self (List.forall_mem_cons.2 ⟨by decide, fun c hc => ?_⟩)
      have hc := hplain.chars c hc
      refine not_trimmed_of_isNoControl (Net.Url.isNoControl_of_isPathChar hc) ?_
      rintro rfl
      exact absurd hc (by decide)
    have hurl : Net.Url.parse (unix path).text = .ok ⟨"unix", none, none, path⟩ := by
      rw [text, Net.Url.parse_unix, hclean, Net.Url.readAuthority_path "unix" hplain, ← hpath,
        String.ofList_toList]
    refine parse_eq_ok_iff.2 ⟨_, hurl, .unix rfl ?_ ?_⟩
    · rintro rfl
      cases hpath
    · rintro rfl
      exact hne (List.cons.inj hpath).2.symm
  | tcp host port =>
    rcases h with h | ⟨groups, hgroups, hhost⟩
    · exact parse_tcp_of_isWhole (isWhole_of_isPlainHost h) port
    · exact parse_tcp_of_isWhole (hhost ▸ isWhole_bracketed hgroups) port

/-- **An endpoint is read back from its text exactly if it is plain.** -/
theorem parse_text_eq_ok_iff {e : Endpoint} : parse e.text = .ok e ↔ e.IsPlain := by
  refine ⟨fun h => isPlain_of_parse h ?_, parse_text_of_isPlain⟩
  rintro path rfl
  obtain ⟨url, hurl, hof⟩ := parse_eq_ok_iff.1 h
  rw [text, Net.Url.parse_unix] at hurl
  obtain ⟨-, hpath, -⟩ := Net.Url.readAuthority_spec hurl
  cases hof with
  | unix _ hempty _ =>
    obtain ⟨rest, hrest, -⟩ := hpath hempty
    rw [hrest, String.toList_ofList]
    rfl

/-! ## What configuration produces -/

/-- Every endpoint is that of some table. -/
theorem exists_setting (e : Endpoint) : ∃ setting, ofSetting? setting = some e := by
  cases e with
  | unix path => exact ⟨.table [("path", .text path), ("transport", .text "unix")], rfl⟩
  | tcp host port =>
    refine ⟨.table [("host", .text host), ("port", .int port.toNat), ("transport", .text "tcp")], ?_⟩
    have hlt := port.toNat_lt
    have hport : asPort? (.int port.toNat) = some port := by
      rw [asPort?, if_pos (by omega), Int.toNat_natCast, UInt16.ofNat_toNat]
    change (asPort? (.int port.toNat)).bind (fun port => some (tcp host port)) = _
    rw [hport]
    rfl

/-- **Which endpoints are read back from their texts.** Configuration can produce every endpoint, and
the plain ones are read back. Of those that are read of a URL these are all but the paths that do not
start at the root. -/
theorem read_back_iff_plain (e : Endpoint) :
    (∃ setting, ofSetting? setting = some e) ∧ (parse e.text = .ok e ↔ e.IsPlain) ∧
    ∀ text, parse text = .ok e →
      (parse e.text = .ok e ↔ ∀ path, e = .unix path → path.toList.head? = some '/') := by
  refine ⟨exists_setting e, parse_text_eq_ok_iff, fun text h => ?_⟩
  rw [parse_text_eq_ok_iff]
  refine ⟨?_, isPlain_of_parse h⟩
  rintro hplain path rfl
  obtain ⟨rest, -, hpath, -⟩ := hplain
  rw [hpath]
  rfl

/-- **A path with a space in it is not read back**, and neither is one behind a scheme without a
slash. -/
theorem spaced_path_not_read_back :
    ofSetting? (.table [("path", .text "/run/my dir/rpc.sock"), ("transport", .text "unix")]) =
      some (.unix "/run/my dir/rpc.sock") ∧
    parse (Endpoint.unix "/run/my dir/rpc.sock").text ≠ .ok (.unix "/run/my dir/rpc.sock") ∧
    parse "unix:rpc.sock" = .ok (.unix "rpc.sock") ∧
    parse (Endpoint.unix "rpc.sock").text ≠ .ok (.unix "rpc.sock") := by
  refine ⟨rfl, fun h => ?_, ?_, fun h => ?_⟩
  · obtain ⟨rest, -, hpath, hplain⟩ := parse_text_eq_ok_iff.1 h
    have hspace : ' ' ∈ "/run/my dir/rpc.sock".toList := by decide
    rw [hpath] at hspace
    rcases List.mem_cons.1 hspace with heq | hspace
    · exact absurd heq (by decide)
    · exact absurd (hplain.chars ' ' hspace) (by decide)
  · have hrelevant : Net.Url.relevant "unix:rpc.sock" = "unix:rpc.sock".toList :=
      Net.Url.relevant_append "unix:rpc.sock".toList (by decide) (by decide)
        (List.append_nil _).symm
    have hscheme : Net.Url.schemeOf? "unix:rpc.sock".toList = some ("unix", "rpc.sock".toList) :=
      Net.Url.schemeOf?_append "unix".toList (by decide) (by decide) (by decide)
        "rpc.sock".toList
    have hurl : Net.Url.parse "unix:rpc.sock" = .ok ⟨"unix", none, none, "rpc.sock"⟩ := by
      rw [Net.Url.parse, hrelevant, hscheme]
      rfl
    exact parse_eq_ok_iff.2 ⟨_, hurl, .unix rfl (by decide) (by decide)⟩
  · obtain ⟨rest, -, hpath, -⟩ := parse_text_eq_ok_iff.1 h
    have hhead := congrArg List.head? hpath
    exact absurd hhead (by simp)

end TorrentControl.Endpoint
