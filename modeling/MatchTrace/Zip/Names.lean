import MatchTrace.Text.Utf8

/-!
Names and comments of zip archives: UTF-8 where the entry says so, else the code page of the first
personal computers.
-/

namespace MatchTrace.Zip

set_option autoImplicit false

def upperHalf : Array Char :=
  ("ÇüéâäàåçêëèïîìÄÅÉæÆôöòûùÿÖÜ¢£¥₧ƒáíóúñÑªº¿⌐¬½¼¡«»░▒▓│┤╡╢╖╕╣║╗╝╜╛┐" ++
   "└┴┬├─┼╞╟╚╔╩╦╠═╬╧╨╤╥╙╘╒╓╫╪┘┌█▄▌▐▀αßΓπΣσµτΦΘΩδ∞φε∩≡±≥≤⌠⌡÷≈°∙·√ⁿ²■\u00A0").toList.toArray

def codePageChar (b : UInt8) : Char :=
  if b < 128 then Char.ofNat b.toNat else (upperHalf[b.toNat - 128]?).getD '\uFFFD'

def textOf (isUtf8 : Bool) (bytes : ByteArray) : String :=
  if isUtf8 then Utf8.decodeLossy bytes else String.ofList (bytes.toList.map codePageChar)

end MatchTrace.Zip
