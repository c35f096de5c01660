import TorrentControl.Text.Hex
import TorrentControl.Text.Utf8

/-! # Percent encoding

A character that may not stand for itself in an address is written as its UTF-8 bytes, each of them
as a percent sign and two digits. Only ASCII characters can stand for themselves. Read back, a
percent sign that two digits do not follow stands for itself. -/

namespace TorrentControl.Text.Percent

def encodeByte (b : UInt8) : List Char :=
  '%' :: Hex.encodeByte .upper b

def encodeChar (isPlain : Char → Bool) (c : Char) : List Char :=
  if c.toNat < 0x80 && isPlain c then [c] else (Utf8.encodeChar c).flatMap encodeByte

def encode (isPlain : Char → Bool) (cs : List Char) : List Char :=
  cs.flatMap (encodeChar isPlain)

def decode : List Char → List UInt8
  | '%' :: high :: low :: rest =>
    match Hex.digitValue? high, Hex.digitValue? low with
    | some h, some l => UInt8.ofNat (16 * h + l) :: decode rest
    | _, _ => Utf8.encodeChar '%' ++ decode (high :: low :: rest)
  | c :: rest => Utf8.encodeChar c ++ decode rest
  | [] => []

end TorrentControl.Text.Percent
