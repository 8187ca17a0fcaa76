import SpiritHost.Bytes

/-!
# UTF-8

A byte string is cut into well-formed scalars and maximal ill-formed parts (`scalars`). Text read
out of a Spirit's memory is never refused: each ill-formed part becomes one replacement character
(`decodeLossy`). File contents and names inside a module must be well formed (`decode?`).
-/

namespace SpiritHost.Utf8

/-- The bytes of a text. -/
def encode (text : String) : Bytes := text.toList.flatMap String.utf8EncodeChar

/-- What may follow a lead byte. -/
structure Lead where
  /-- The lead byte's own payload bits. -/
  payload : Nat
  /-- How many bytes follow. -/
  following : Nat
  /-- Least first following byte: excludes overlong forms. -/
  low : UInt8
  /-- Greatest first following byte: excludes surrogates and scalars past the last one. -/
  high : UInt8

/-- The forms a scalar of two to four bytes can begin with. -/
def lead? (b : UInt8) : Option Lead :=
  if b < 0xC2 then none
  else if b < 0xE0 then some ⟨b.toNat - 0xC0, 1, 0x80, 0xBF⟩
  else if b < 0xF0 then
    some ⟨b.toNat - 0xE0, 2, if b = 0xE0 then 0xA0 else 0x80, if b = 0xED then 0x9F else 0xBF⟩
  else if b < 0xF5 then
    some ⟨b.toNat - 0xF0, 3, if b = 0xF0 then 0x90 else 0x80, if b = 0xF4 then 0x8F else 0xBF⟩
  else none

/-- A byte that can stand second or later in a scalar. -/
def isContinuation (b : UInt8) : Bool := 0x80 ≤ b && b ≤ 0xBF

/-- A value with the six payload bits of a continuation byte appended. -/
def append (value : Nat) (b : UInt8) : Nat := value * 64 + (b.toNat - 0x80)

/-- The scalars of a byte string in order, `none` for each maximal ill-formed part: the longest
start of a scalar that the bytes hold, or one byte that starts none. -/
def scalars : Bytes → List (Option Char)
  | [] => []
  | b :: rest =>
    if b < 0x80 then some (Char.ofNat b.toNat) :: scalars rest
    else match lead? b with
      | none => none :: scalars rest
      | some l => match rest with
        | [] => [none]
        | b₁ :: rest₁ =>
          if b₁ < l.low || l.high < b₁ then none :: scalars (b₁ :: rest₁)
          else
            let v₁ := append l.payload b₁
            if l.following = 1 then some (Char.ofNat v₁) :: scalars rest₁
            else match rest₁ with
              | [] => [none]
              | b₂ :: rest₂ =>
                if !isContinuation b₂ then none :: scalars (b₂ :: rest₂)
                else
                  let v₂ := append v₁ b₂
                  if l.following = 2 then some (Char.ofNat v₂) :: scalars rest₂
                  else match rest₂ with
                    | [] => [none]
                    | b₃ :: rest₃ =>
                      if !isContinuation b₃ then none :: scalars (b₃ :: rest₃)
                      else some (Char.ofNat (append v₂ b₃)) :: scalars rest₃

/-- The text of a byte string, with one replacement character for each ill-formed part. -/
def decodeLossy (bytes : Bytes) : String :=
  String.ofList ((scalars bytes).map (·.getD '\uFFFD'))

/-- The text of a well-formed byte string. -/
def decode? (bytes : Bytes) : Option String :=
  ((scalars bytes).mapM id).map String.ofList

/-- Number of bytes a text takes. -/
def size (text : String) : Nat := (encode text).length

end SpiritHost.Utf8
