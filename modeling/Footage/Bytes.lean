/-!
# Byte strings

A byte string is a list of bytes, so that what is said about one is proved by induction.  Texts
travel as UTF-8: `Bytes.ofText` encodes, `Bytes.toText?` decodes and refuses what is not well
formed.  What was encoded decodes to itself (`Bytes.toText?_ofText`).
-/

namespace Footage

/-- A run of bytes. -/
abbrev Bytes := List UInt8

namespace Bytes

/-- The UTF-8 form of a text. -/
def ofText (s : String) : Bytes := s.toUTF8.data.toList

/-- The text with this UTF-8 form, if there is one. -/
def toText? (b : Bytes) : Option String := String.fromUTF8? ⟨b.toArray⟩

@[simp] theorem toText?_ofText (s : String) : toText? (ofText s) = some s := by
  have whole : (⟨(ofText s).toArray⟩ : ByteArray) = s.toByteArray := by
    simp [ofText, String.toUTF8_eq_toByteArray]
  simp only [toText?, String.fromUTF8?, whole, s.isValidUTF8, dif_pos]
  rfl

@[simp] theorem ofText_empty : ofText "" = [] := rfl

end Bytes

end Footage
