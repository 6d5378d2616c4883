import ServiceCatalog.Files.Contents
import ServiceCatalog.Proofs.Text.Utf8

/-!
Contents and bytes are the same thing: each is got back from the other. A text is read from its bytes
as it was, and is added to as a text.
-/
namespace ServiceCatalog.Contents

theorem toByteArray_encode (s : String) : (Utf8.encode s.toList).toByteArray = s.toByteArray := by
  have h : (String.ofList s.toList).toByteArray = s.toList.utf8Encode := String.toByteArray_ofList
  rw [String.ofList_toList] at h
  exact h.symm

theorem bytes_ofBytes (b : List UInt8) : (ofBytes b).bytes = b := by
  unfold ofBytes
  split
  · rw [bytes, ← List.toByteArray_inj, toByteArray_encode]
    rfl
  · rfl

theorem ofBytes_bytes (c : Contents) : ofBytes c.bytes = c := by
  cases c with
  | text s =>
    have hs : (Utf8.encode s.toList).toByteArray = s.toByteArray := toByteArray_encode s
    have hvalid : (Utf8.encode s.toList).toByteArray.IsValidUTF8 := hs ▸ s.isValidUTF8
    rw [bytes, ofBytes, dif_pos hvalid]
    exact congrArg text (String.toByteArray_inj.mp hs)
  | broken b h => exact dif_neg h

@[simp]
theorem markedText_text (mark : List Char) (s : String) : (text s).markedText mark = s := by
  rw [markedText, bytes, Utf8.decode_encode, String.ofList_toList]

@[simp]
theorem append_text (s t : String) : (text s).append t = text (s ++ t) := by
  have hbytes : (text (s ++ t)).bytes = (text s).bytes ++ Utf8.encode t.toList := by
    rw [bytes, bytes, String.toList_append, Utf8.encode, List.flatMap_append]
    rfl
  rw [append, ← hbytes, ofBytes_bytes]

end ServiceCatalog.Contents
