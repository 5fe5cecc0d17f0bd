import LanguageHub.Text.Utf8

/-!
# Percent encoding

A byte that cannot stand in a component is written as a percent sign and two digits in
base sixteen. `decode` undoes `encode`, whatever the set of bytes that are encoded, as
long as the percent sign is one of them.
-/

namespace LanguageHub.Uri.Percent

/-- The digit of a value below sixteen. -/
def digit (n : Nat) : Char :=
  if n < 10 then Char.ofNat (48 + n) else Char.ofNat (55 + n)

/-- The value of a digit in base sixteen. -/
def value? (c : Char) : Option Nat :=
  if '0' ≤ c && c ≤ '9' then some (c.toNat - 48)
  else if 'a' ≤ c && c ≤ 'f' then some (c.toNat - 87)
  else if 'A' ≤ c && c ≤ 'F' then some (c.toNat - 55)
  else none

/-- The text of a byte string, with the bytes of a set encoded. -/
def encode (isSpecial : UInt8 → Bool) (bytes : List UInt8) : List Char :=
  bytes.flatMap fun b =>
    if isSpecial b then ['%', digit (b.toNat / 16), digit (b.toNat % 16)]
    else [Char.ofNat b.toNat]

/-- The bytes of a text with encoded bytes. -/
def decode : List Char → List UInt8
  | [] => []
  | '%' :: a :: b :: s =>
    match value? a, value? b with
    | some m, some n => UInt8.ofNat (m * 16 + n) :: decode s
    | _, _ => 0x25 :: decode (a :: b :: s)
  | c :: s => String.utf8EncodeChar c ++ decode s

end LanguageHub.Uri.Percent
