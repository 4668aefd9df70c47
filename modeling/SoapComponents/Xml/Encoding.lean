import SoapComponents.Text.Cut
import SoapComponents.Text.LetterCase
import SoapComponents.Xml.CodePage
import SoapComponents.Xml.Declaration

/-!
Character encodings of a document. The first bytes tell 16-bit units from 8-bit ones; within
8-bit ones the XML declaration may name another encoding than UTF-8.
-/

set_option autoImplicit false

namespace SoapComponents.Xml

open SoapComponents.Text

inductive Encoding where
  | utf8
  | bytewise (page : CodePage)

inductive EncodingError where
  | invalid
  | unknown (name : String)
  | multiByte
  deriving DecidableEq, Repr

def continuation? (b : UInt8) : Option Nat :=
  if 0x80 ≤ b && b < 0xC0 then some (b.toNat - 0x80) else none

/-- The character of a number that is at least `least`, so that no character has two spellings. -/
def scalar? (least n : Nat) : Option Char :=
  if h : n.isValidChar then if least ≤ n then some (Char.ofNatAux n h) else none else none

def decodeUtf8 : List UInt8 → Option (List Char)
  | [] => some []
  | b :: rest =>
    if b < 0x80 then (decodeUtf8 rest).map (Char.ofNat b.toNat :: ·)
    else if 0xC2 ≤ b && b < 0xE0 then
      match rest with
      | b₁ :: rest => do
        let c ← scalar? 0x80 ((b.toNat - 0xC0) * 64 + (← continuation? b₁))
        (decodeUtf8 rest).map (c :: ·)
      | _ => none
    else if 0xE0 ≤ b && b < 0xF0 then
      match rest with
      | b₁ :: b₂ :: rest => do
        let n := ((b.toNat - 0xE0) * 64 + (← continuation? b₁)) * 64 + (← continuation? b₂)
        let c ← scalar? 0x800 n
        (decodeUtf8 rest).map (c :: ·)
      | _ => none
    else if 0xF0 ≤ b && b < 0xF5 then
      match rest with
      | b₁ :: b₂ :: b₃ :: rest => do
        let n := (((b.toNat - 0xF0) * 64 + (← continuation? b₁)) * 64 + (← continuation? b₂)) * 64
          + (← continuation? b₃)
        let c ← scalar? 0x10000 n
        (decodeUtf8 rest).map (c :: ·)
      | _ => none
    else none

def units16 (bigEndian : Bool) : List UInt8 → Option (List Nat)
  | [] => some []
  | [_] => none
  | b₀ :: b₁ :: rest =>
    (units16 bigEndian rest).map
      ((if bigEndian then b₀.toNat * 256 + b₁.toNat else b₁.toNat * 256 + b₀.toNat) :: ·)

/-- The characters of 16-bit units. Of the unit after the first of a pair only the low ten bits
count. -/
def ofUnits16 : List Nat → Option (List Char)
  | [] => some []
  | u :: rest =>
    if 0xD800 ≤ u && u < 0xDC00 then
      match rest with
      | v :: rest =>
        (ofUnits16 rest).map (Char.ofNat (0x10000 + (u - 0xD800) * 1024 + v % 1024) :: ·)
      | [] => none
    else if 0xDC00 ≤ u && u < 0xE000 then none
    else (ofUnits16 rest).map (Char.ofNat u :: ·)

/-- The spelling under which encodings are looked up: small letters, and a low line between the
runs of letters and digits. -/
def encodingKey (name : String) : String :=
  "_".intercalate (((splitBy (fun c => !c.isAlphanum) (lower name).toList).filter (· ≠ [])).map
    String.ofList)

/-- Encodings whose single bytes above ASCII mean nothing, so that a document that names one of
them is read as ASCII. -/
def asciiOnly : List String := [
  "utf8", "utf_8", "u8", "utf", "utf8_ucs2", "utf8_ucs4", "utf_8_sig", "cp65001", "iso2022_jp",
  "iso_2022_jp", "iso2022jp", "csiso2022jp"]

/-- Encodings in which a byte of ASCII may be another character. -/
def foreign : List String := [
  "cp037", "ibm037", "ibm039", "csibm037", "ebcdic_cp_ca", "ebcdic_cp_nl", "ebcdic_cp_us",
  "ebcdic_cp_wt", "cp273", "ibm273", "cp424", "ibm424", "ebcdic_cp_he", "cp500", "ibm500",
  "ebcdic_cp_be", "ebcdic_cp_ch", "cp875", "cp1026", "ibm1026", "cp1140", "ibm1140"]

def multiByte : List String := [
  "utf16", "utf_16", "u16", "utf_16_be", "utf_16be", "utf_16_le", "utf_16le", "utf32", "utf_32",
  "u32", "utf_32_be", "utf_32be", "utf_32_le", "utf_32le", "utf7", "utf_7", "u7", "big5",
  "big5_tw", "csbig5", "big5_hkscs", "big5hkscs", "hkscs", "gb2312", "gb2312_80", "gb2312_1980",
  "chinese", "euc_cn", "euccn", "eucgb2312_cn", "csiso58gb231280", "iso_ir_58", "gbk", "cp936",
  "ms936", "gb18030", "gb18030_2000", "shift_jis", "shiftjis", "sjis", "s_jis", "csshiftjis",
  "cp932", "ms932", "mskanji", "ms_kanji", "euc_jp", "eucjp", "ujis", "u_jis", "euc_kr", "euckr",
  "korean", "ksc5601", "ks_c_5601", "ks_c_5601_1987", "ksx1001", "ks_x_1001", "cp949", "ms949",
  "uhc", "cp950", "ms950", "johab", "cp1361", "ms1361", "iso2022_kr", "iso2022kr", "iso_2022_kr",
  "csiso2022kr"]

/-- The encoding that a document in 8-bit units may name. Only the usual spelling of UTF-8 names
that encoding itself. -/
def namedEncoding (name : String) : Except EncodingError Encoding :=
  let small := lower name
  let key := encodingKey name
  if small == "utf-8" then .ok .utf8
  else if ["utf-16", "utf-16le", "utf-16be"].contains small then .error .invalid
  else if asciiOnly.contains key then .ok (.bytewise CodePage.ascii)
  else if foreign.contains key then .error .invalid
  else if multiByte.contains key then .error .multiByte
  else
    match CodePage.find? key with
    | some page => .ok (.bytewise page)
    | none => .error (.unknown name)

/-- What the first bytes say: the marks of 16-bit units, or a zero next to the first character.
The answer comes with the bytes after the mark. -/
def sniff : List UInt8 → Option Bool × List UInt8
  | 0xFE :: 0xFF :: rest => (some true, rest)
  | 0xFF :: 0xFE :: rest => (some false, rest)
  | 0xEF :: 0xBB :: 0xBF :: rest => (none, rest)
  | 0 :: rest => (some true, 0 :: rest)
  | b :: 0 :: rest => (some false, b :: 0 :: rest)
  | bytes => (none, bytes)

def decodeBytewise (page : CodePage) (bytes : List UInt8) : Option (List Char) :=
  bytes.mapM fun b => page.character b.toNat

def decodeNamed (encoding : Encoding) (bytes : List UInt8) : Option (List Char) :=
  match encoding with
  | .utf8 => decodeUtf8 bytes
  | .bytewise page => decodeBytewise page bytes

/-- The encoding that the characters of a document name. A declaration that is not well formed names
none that could be read. -/
def declaredEncoding (cs : List Char) : Except EncodingError (Option String) :=
  match Scan.declaration.run cs with
  | some (declaration, _) => .ok declaration.encoding
  | none => .error .invalid

def checkWideName (bigEndian : Bool) (name : String) : Except EncodingError Unit :=
  let small := lower name
  if small == "utf-16" || small == (if bigEndian then "utf-16be" else "utf-16le") then .ok ()
  else do
    let _ ← namedEncoding name
    .error .invalid

def decode (bytes : List UInt8) : Except EncodingError (List Char) :=
  match sniff bytes with
  | (some bigEndian, bytes) =>
    match (units16 bigEndian bytes).bind ofUnits16 with
    | some cs => do
      match ← declaredEncoding cs with
      | some name => checkWideName bigEndian name
      | none => pure ()
      return cs
    | none => .error .invalid
  | (none, bytes) => do
    let encoding ← match ← declaredEncoding (bytes.map fun b => Char.ofNat b.toNat) with
      | some name => namedEncoding name
      | none => pure .utf8
    match decodeNamed encoding bytes with
    | some cs => return cs
    | none => .error .invalid

end SoapComponents.Xml
