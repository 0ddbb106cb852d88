/-!
This module contains the encodings between texts and the bytes of a file.
-/

namespace DotFormat.Text

inductive Encoding where
  | utf8
  | latin1
  | ascii
  deriving DecidableEq, Repr

namespace Encoding

/--
One more than the greatest code point of an encoding with one byte for each character.
-/
def singleByteLimit : Encoding → Nat
  | .latin1 => 0x100
  | _ => 0x80

def decode? (encoding : Encoding) (bytes : ByteArray) : Option String :=
  match encoding with
  | .utf8 => String.fromUTF8? bytes
  | _ =>
    if bytes.data.toList.all (·.toNat < encoding.singleByteLimit) then
      some (String.ofList (bytes.data.toList.map fun b => Char.ofNat b.toNat))
    else none

def encode? (encoding : Encoding) (text : String) : Option ByteArray :=
  match encoding with
  | .utf8 => some text.toUTF8
  | _ =>
    if text.toList.all (·.toNat < encoding.singleByteLimit) then
      some ⟨(text.toList.map fun c => UInt8.ofNat c.toNat).toArray⟩
    else none

end Encoding

end DotFormat.Text
