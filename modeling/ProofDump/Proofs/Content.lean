import ProofDump.Content
import ProofDump.Proofs.Text.Bytes
import ProofDump.Proofs.Text.Utf8

/-!
# What files hold

A file reads as a text if that text was written to it (`text_eq_ok_iff`), and of a stretch of the bytes of a
text the characters are left that lie in it as a whole (`stretch_ofText`).
-/

namespace ProofDump

namespace Text

theorem length_encode (text : List Char) : (encode text).length = byteLength text := by
  induction text with
  | nil => rfl
  | cons c text ih =>
      rw [encode, List.flatMap_cons, List.length_append, String.length_utf8EncodeChar, ← encode, ih, byteLength_cons]

/-- The bytes from one place to another of a text that begins at a byte write the characters that lie there as
a whole. -/
theorem decodeSound_cut (start stop offset : Nat) (text : List Char) :
    decodeSound (((encode text).take (stop - offset)).drop (start - offset)) =
      (cutBytes start stop offset text).1 := by
  induction text generalizing offset with
  | nil => simp [encode, cutBytes, decodeSound, pieces, piecesFrom]
  | cons c text ih =>
      have hpos := c.utf8Size_pos
      have hlength := String.length_utf8EncodeChar c
      rw [encode, List.flatMap_cons, ← encode, cutBytes_cons, List.take_append, List.drop_append]
      by_cases hstop : offset + c.utf8Size ≤ stop
      · rw [List.take_of_length_le (by omega), hlength, Nat.sub_sub, Nat.sub_sub]
        by_cases hstart : start ≤ offset
        · have hwhole := decodeSound_encode_append [c]
          rw [encode, List.flatMap_singleton] at hwhole
          rw [if_pos ⟨hstart, hstop⟩, Nat.sub_eq_zero_of_le hstart, List.drop_zero, hwhole, ih]
          rfl
        · rw [if_neg (by omega), decodeSound_followers_append (isWithin_follower_of_mem_drop (by omega)), ih]
          split_ifs <;> rfl
      · have hbehind : stop - offset - c.utf8Size = 0 := by omega
        rw [if_neg (by omega), cutBytes_behind (by omega), hlength, hbehind, List.take_zero, List.drop_nil,
          List.append_nil, decodeSound_torn (by omega)]
        split_ifs <;> rfl

end Text

namespace Content

theorem text_eq_ok_iff {content : Content} {text : String} : content.text = .ok text ↔ content = .ofText text := by
  obtain ⟨bytes⟩ := content
  rw [Content.text, ofText, mk.injEq, ← Text.decode_eq_ok_iff]
  cases Text.decode bytes with
  | error defect => exact iff_of_false (fun hok => by cases hok) (fun hok => by cases hok)
  | ok read => rw [Except.ok.injEq, Except.ok.injEq, ← String.toList_inj, String.toList_ofList]

@[simp] theorem text_ofText (text : String) : (ofText text).text = .ok text := text_eq_ok_iff.2 rfl

/-- The characters of a stretch of the bytes of a text. -/
theorem stretch_ofText (text : String) (start stop : Int) :
    (ofText text).stretch start stop = (Text.sliceBytes start stop text.toList).1 := by
  have hcut := Text.decodeSound_cut (clamp (Text.byteLength text.toList) start)
    (clamp (Text.byteLength text.toList) stop) 0 text.toList
  rw [stretch, slice, ofText, Text.length_encode]
  exact hcut

end Content

end ProofDump
