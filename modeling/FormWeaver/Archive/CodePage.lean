/-!
# Code page 437

The names of an archive that are not marked as UTF-8 are in code page 437: the lower half is ASCII,
the upper half is the table below.
-/

namespace FormWeaver.Archive

/-- The characters of the bytes from `0x80` on. -/
def upperHalf : List Char :=
  ("ÇüéâäàåçêëèïîìÄÅÉæÆôöòûùÿÖÜ¢£¥₧ƒ" ++
    "áíóúñÑªº¿⌐¬½¼¡«»░▒▓│┤╡╢╖╕╣║╗╝╜╛┐" ++
    "└┴┬├─┼╞╟╚╔╩╦╠═╬╧╨╤╥╙╘╒╓╫╪┘┌█▄▌▐▀" ++
    "αßΓπΣσµτΦΘΩδ∞φε∩≡±≥≤⌠⌡÷≈°∙·√ⁿ²■\u00a0").toList

/-- The character of a byte. -/
def codePageChar (b : UInt8) : Char :=
  if b < 0x80 then Char.ofNat b.toNat else upperHalf.getD (b.toNat - 0x80) ' '

/-- The text of bytes in the code page. -/
def codePageText (bytes : List UInt8) : String := String.ofList (bytes.map codePageChar)

end FormWeaver.Archive
