/-! The bytes of a text in UTF-8. -/

namespace Marginalia.Text

def bytes (text : List Char) : List UInt8 := text.flatMap String.utf8EncodeChar

end Marginalia.Text
