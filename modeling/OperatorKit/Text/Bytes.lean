/-!
# Bytes of texts

Files and messages hold the bytes of a text in UTF-8. Not all bytes are those of a text.
-/

namespace OperatorKit.Text

/-- The bytes of a string in UTF-8. -/
def bytes (s : String) : List UInt8 := s.toUTF8.data.toList

/-- The string with given bytes, if there is one. -/
def ofBytes? (bs : List UInt8) : Option String := String.fromUTF8? ⟨bs.toArray⟩

theorem ofBytes?_bytes (s : String) : ofBytes? (bytes s) = some s := by
  have hbytes : (⟨(bytes s).toArray⟩ : ByteArray) = s.toByteArray := by
    rw [bytes, Array.toArray_toList]
    rfl
  rw [ofBytes?, String.fromUTF8?, hbytes, dif_pos s.isValidUTF8]
  rfl

end OperatorKit.Text
