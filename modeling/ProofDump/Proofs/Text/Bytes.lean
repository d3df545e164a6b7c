import Mathlib.Data.List.Basic
import ProofDump.Text.Bytes

/-!
# Stretches of bytes of texts put together

A text made of parts is cut part by part: what lies before the stretch or behind it leaves nothing, what
lies inside is kept whole. A stretch that starts between two characters and stops one byte too late keeps
the next character if that is a single byte, and tears it otherwise. Lengths in bytes are those of the
encoded text.
-/

namespace ProofDump.Text

/-! ### Lengths -/

@[simp] theorem byteLength_nil : byteLength [] = 0 := rfl

@[simp] theorem byteLength_cons (c : Char) (text : List Char) :
    byteLength (c :: text) = c.utf8Size + byteLength text := rfl

@[simp] theorem byteLength_append (left right : List Char) :
    byteLength (left ++ right) = byteLength left + byteLength right := by
  induction left with
  | nil => simp
  | cons c left ih => rw [List.cons_append, byteLength_cons, byteLength_cons, ih, Nat.add_assoc]

theorem byteLength_pos {text : List Char} (htext : text ≠ []) : 0 < byteLength text := by
  obtain ⟨c, rest, rfl⟩ := List.exists_cons_of_ne_nil htext
  have hsize := c.utf8Size_pos
  rw [byteLength_cons]
  omega

theorem size_utf8Encode (text : List Char) : text.utf8Encode.size = byteLength text := by
  induction text with
  | nil => simp
  | cons c text ih =>
      rw [List.utf8Encode_cons, ByteArray.size_append, ih, List.utf8Encode_singleton,
        List.size_toByteArray, String.length_utf8EncodeChar, byteLength_cons]

theorem utf8ByteSize_eq (text : String) : text.utf8ByteSize = byteLength text.toList := by
  rw [← size_utf8Encode, ← String.toByteArray_ofList, String.ofList_toList, String.size_toByteArray]

theorem eq_nil_of_byteLength_eq_zero {text : List Char} (hzero : byteLength text = 0) : text = [] := by
  by_contra hne
  have hpos := byteLength_pos hne
  omega

theorem exists_append_of_byteLength_le {front rest front' rest' : List Char} (hsame : front ++ rest = front' ++ rest')
    (hle : byteLength front ≤ byteLength front') :
    ∃ middle, front' = front ++ middle ∧ rest = middle ++ rest' := by
  rcases List.append_eq_append_iff.1 hsame with hlonger | ⟨middle, hshorter, hrest⟩
  · exact hlonger
  · have hlengths := congrArg byteLength hshorter
    rw [byteLength_append] at hlengths
    obtain rfl : middle = [] := eq_nil_of_byteLength_eq_zero (by omega)
    exact ⟨[], by simpa using hshorter.symm, by simpa using hrest.symm⟩

theorem append_inj_of_byteLength {front rest front' rest' : List Char} (hsame : front ++ rest = front' ++ rest')
    (hlength : byteLength front = byteLength front') : front = front' ∧ rest = rest' := by
  obtain ⟨middle, rfl, rfl⟩ := exists_append_of_byteLength_le hsame (Nat.le_of_eq hlength)
  rw [byteLength_append] at hlength
  obtain rfl : middle = [] := eq_nil_of_byteLength_eq_zero (by omega)
  exact ⟨(List.append_nil _).symm, rfl⟩

theorem isValid_of_append {text : String} {front back : List Char} (htext : text.toList = front ++ back) :
    String.Pos.Raw.IsValid text ⟨byteLength front⟩ := by
  refine String.Pos.Raw.isValid_iff_exists_append.2 ⟨String.ofList front, String.ofList back, ?_, ?_⟩
  · rw [← String.ofList_append, ← htext, String.ofList_toList]
  · show (⟨byteLength front⟩ : String.Pos.Raw) = ⟨(String.ofList front).utf8ByteSize⟩
    rw [utf8ByteSize_eq, String.toList_ofList]

/-- Two places between characters cut a text into three. -/
theorem exists_parts {text : String} {start stop : Nat} (hstart : String.Pos.Raw.IsValid text ⟨start⟩)
    (hstop : String.Pos.Raw.IsValid text ⟨stop⟩) (hle : start ≤ stop) :
    ∃ before part after, text.toList = before ++ part ++ after ∧ byteLength before = start ∧
      byteLength (before ++ part) = stop := by
  obtain ⟨before, rest, htext, hbefore⟩ := String.Pos.Raw.isValid_iff_exists_append.1 hstart
  obtain ⟨front, after, hsame, hfront⟩ := String.Pos.Raw.isValid_iff_exists_append.1 hstop
  replace hbefore : start = byteLength before.toList := by
    rw [← utf8ByteSize_eq]
    exact congrArg String.Pos.Raw.byteIdx hbefore
  replace hfront : stop = byteLength front.toList := by
    rw [← utf8ByteSize_eq]
    exact congrArg String.Pos.Raw.byteIdx hfront
  have hparts : before.toList ++ rest.toList = front.toList ++ after.toList := by
    rw [← String.toList_append, ← String.toList_append, ← htext, ← hsame]
  subst htext
  rw [String.toList_append]
  obtain ⟨part, hlonger, hrest⟩ := exists_append_of_byteLength_le hparts (by omega)
  refine ⟨before.toList, part, after.toList, ?_, hbefore.symm, ?_⟩
  · rw [hrest, List.append_assoc]
  · rw [hfront, hlonger]

/-- The bytes of a part of a text. -/
theorem toByteArray_part {text : String} {before part after : List Char}
    (htext : text.toList = before ++ part ++ after) :
    (String.ofList part).toByteArray =
      text.toByteArray.extract (byteLength before) (byteLength (before ++ part)) := by
  have hbytes : text.toByteArray = before.utf8Encode ++ (part.utf8Encode ++ after.utf8Encode) := by
    rw [← List.utf8Encode_append, ← List.utf8Encode_append, ← List.append_assoc, ← htext,
      ← String.toByteArray_ofList, String.ofList_toList]
  have hwithin := ByteArray.extract_append_size_add (a := before.utf8Encode)
    (b := part.utf8Encode ++ after.utf8Encode) (i := 0) (j := part.utf8Encode.size)
  rw [ByteArray.extract_append_eq_left rfl, Nat.add_zero, size_utf8Encode, size_utf8Encode] at hwithin
  rw [String.toByteArray_ofList, hbytes, byteLength_append, hwithin]

/-! ### Cuts -/

theorem cutBytes_cons (start stop offset : Nat) (c : Char) (text : List Char) :
    cutBytes start stop offset (c :: text) =
      if start ≤ offset ∧ offset + c.utf8Size ≤ stop then
        (c :: (cutBytes start stop (offset + c.utf8Size) text).1,
          (cutBytes start stop (offset + c.utf8Size) text).2)
      else if start < stop ∧ start < offset + c.utf8Size ∧ offset < stop then
        ((cutBytes start stop (offset + c.utf8Size) text).1, true)
      else cutBytes start stop (offset + c.utf8Size) text := rfl

theorem cutBytes_append (start stop offset : Nat) (left right : List Char) :
    cutBytes start stop offset (left ++ right) =
      ((cutBytes start stop offset left).1 ++ (cutBytes start stop (offset + byteLength left) right).1,
        (cutBytes start stop offset left).2 || (cutBytes start stop (offset + byteLength left) right).2) := by
  induction left generalizing offset with
  | nil => simp [cutBytes]
  | cons c left ih =>
      rw [List.cons_append, cutBytes_cons, cutBytes_cons, ih, byteLength_cons, ← Nat.add_assoc]
      split
      · rfl
      · split
        · simp
        · rfl

theorem cutBytes_before {start stop offset : Nat} {text : List Char}
    (hbefore : offset + byteLength text ≤ start) : cutBytes start stop offset text = ([], false) := by
  induction text generalizing offset with
  | nil => rfl
  | cons c text ih =>
      have hsize := c.utf8Size_pos
      rw [byteLength_cons] at hbefore
      rw [cutBytes_cons, ih (by omega), if_neg (by omega), if_neg (by omega)]

theorem cutBytes_behind {start stop offset : Nat} (hbehind : stop ≤ offset) (text : List Char) :
    cutBytes start stop offset text = ([], false) := by
  induction text generalizing offset with
  | nil => rfl
  | cons c text ih =>
      have hsize := c.utf8Size_pos
      rw [cutBytes_cons, ih (by omega), if_neg (by omega), if_neg (by omega)]

theorem cutBytes_inside {start stop offset : Nat} {text : List Char} (hstart : start ≤ offset)
    (hstop : offset + byteLength text ≤ stop) : cutBytes start stop offset text = (text, false) := by
  induction text generalizing offset with
  | nil => rfl
  | cons c text ih =>
      rw [byteLength_cons] at hstop
      rw [cutBytes_cons, ih (by omega) (by omega), if_pos (by omega)]

theorem cutBytes_parts {stop : Nat} (before part : List Char)
    (hstop : byteLength before + byteLength part ≤ stop) (after : List Char) :
    cutBytes (byteLength before) stop 0 (before ++ part ++ after) =
      (part ++ (cutBytes (byteLength before) stop (byteLength before + byteLength part) after).1,
        (cutBytes (byteLength before) stop (byteLength before + byteLength part) after).2) := by
  rw [List.append_assoc, cutBytes_append, cutBytes_before (by omega), cutBytes_append,
    Nat.zero_add, cutBytes_inside (by omega) (by omega)]
  simp

theorem cutBytes_shift (distance start stop offset : Nat) (text : List Char) :
    cutBytes (distance + start) (distance + stop) (distance + offset) text =
      cutBytes start stop offset text := by
  induction text generalizing offset with
  | nil => rfl
  | cons c text ih =>
      rw [cutBytes_cons, cutBytes_cons, Nat.add_assoc, ih]
      simp only [Nat.add_le_add_iff_left, Nat.add_lt_add_iff_left]

/-- To a text it does not matter where before it a stretch starts, nor where behind it the stretch stops. -/
theorem cutBytes_congr {start start' stop stop' offset : Nat} {text : List Char}
    (hstart : start = start' ∨ start ≤ offset ∧ start' ≤ offset)
    (hstop : stop = stop' ∨ offset + byteLength text ≤ stop ∧ offset + byteLength text ≤ stop') :
    cutBytes start stop offset text = cutBytes start' stop' offset text := by
  induction text generalizing offset with
  | nil => rfl
  | cons c text ih =>
      rw [byteLength_cons] at hstop
      have hinside : (start ≤ offset ∧ offset + c.utf8Size ≤ stop) ↔
          (start' ≤ offset ∧ offset + c.utf8Size ≤ stop') := by omega
      have hsize := c.utf8Size_pos
      have htorn : (start < stop ∧ start < offset + c.utf8Size ∧ offset < stop) ↔
          (start' < stop' ∧ start' < offset + c.utf8Size ∧ offset < stop') := by omega
      rw [cutBytes_cons, cutBytes_cons, ih (by omega) (by omega)]
      simp only [hinside, htorn]

/-- What is kept from the first byte of a text to a place between two characters. -/
theorem eq_append_of_cutBytes {start stop offset : Nat} {text part : List Char} (hstart : start ≤ offset)
    (hoffset : offset ≤ stop) (hstop : stop ≤ offset + byteLength text)
    (hcut : cutBytes start stop offset text = (part, false)) :
    ∃ after, text = part ++ after ∧ offset + byteLength part = stop := by
  induction text generalizing offset part with
  | nil =>
      cases hcut
      exact ⟨[], rfl, Nat.le_antisymm hoffset hstop⟩
  | cons c text ih =>
      rw [byteLength_cons] at hstop
      rw [cutBytes_cons] at hcut
      by_cases hinside : offset + c.utf8Size ≤ stop
      · rw [if_pos ⟨hstart, hinside⟩, Prod.mk.injEq] at hcut
        obtain ⟨rfl, hwhole⟩ := hcut
        obtain ⟨after, htext, hlength⟩ := ih (by omega) hinside (by omega) (Prod.ext rfl hwhole)
        refine ⟨after, by rw [List.cons_append, ← htext], ?_⟩
        rw [byteLength_cons, ← Nat.add_assoc]
        exact hlength
      · rw [if_neg (by omega)] at hcut
        by_cases htorn : offset < stop
        · rw [if_pos (by omega)] at hcut
          cases hcut
        · rw [if_neg (by omega), cutBytes_behind (by omega)] at hcut
          cases hcut
          exact ⟨c :: text, rfl, by rw [byteLength_nil]; omega⟩

theorem exists_append_of_cutBytes {start stop offset : Nat} {text part : List Char} (hoffset : offset ≤ start)
    (hlt : start < stop) (hstop : stop ≤ offset + byteLength text)
    (hcut : cutBytes start stop offset text = (part, false)) :
    ∃ before after, text = before ++ part ++ after ∧ offset + byteLength before = start ∧
      offset + byteLength (before ++ part) = stop := by
  induction text generalizing offset with
  | nil =>
      rw [byteLength_nil] at hstop
      omega
  | cons c text ih =>
      rcases Nat.eq_or_lt_of_le hoffset with rfl | hbefore
      · obtain ⟨after, htext, hlength⟩ := eq_append_of_cutBytes (Nat.le_refl _) (Nat.le_of_lt hlt) hstop hcut
        exact ⟨[], after, htext, rfl, hlength⟩
      · rw [byteLength_cons] at hstop
        rw [cutBytes_cons, if_neg (by omega)] at hcut
        by_cases htorn : start < offset + c.utf8Size
        · rw [if_pos (by omega)] at hcut
          cases hcut
        · rw [if_neg (by omega)] at hcut
          obtain ⟨before, after, rfl, hfront, hpart⟩ := ih (by omega) (by omega) hcut
          refine ⟨c :: before, after, by simp, ?_, ?_⟩
          · rw [byteLength_cons]
            omega
          · rw [List.cons_append, byteLength_cons]
            omega

/-! ### Slices -/

theorem clamp_natCast (length position : Nat) : clamp length position = min position length := by
  rw [clamp, if_neg (by omega), Int.toNat_natCast]

theorem sliceBytes_natCast (start stop : Nat) (text : List Char) :
    sliceBytes start stop text =
      cutBytes (min start (byteLength text)) (min stop (byteLength text)) 0 text := by
  rw [sliceBytes, clamp_natCast, clamp_natCast]

theorem sliceBytes_append_left (front : List Char) (start stop : Nat) (text : List Char) :
    sliceBytes (byteLength front + start : Nat) (byteLength front + stop : Nat) (front ++ text) =
      sliceBytes start stop text := by
  have hshift := cutBytes_shift (byteLength front) (min start (byteLength text))
    (min stop (byteLength text)) 0 text
  rw [sliceBytes_natCast, sliceBytes_natCast, byteLength_append, Nat.add_min_add_left,
    Nat.add_min_add_left, cutBytes_append, cutBytes_before (by omega), Nat.zero_add, ← hshift]
  rfl

theorem sliceBytes_append_right {start stop : Nat} {text : List Char} (hle : start ≤ stop)
    (hstop : stop ≤ byteLength text) (back : List Char) :
    sliceBytes start stop (text ++ back) = sliceBytes start stop text := by
  have hbehind : cutBytes start stop (0 + byteLength text) back = ([], false) :=
    cutBytes_behind (by omega) back
  rw [sliceBytes_natCast, sliceBytes_natCast, byteLength_append, Nat.min_eq_left (by omega),
    Nat.min_eq_left (by omega), Nat.min_eq_left (by omega), Nat.min_eq_left hstop, cutBytes_append, hbehind]
  simp

theorem sliceBytes_append {start : Nat} {left : List Char} (hstart : start ≤ byteLength left) (stop : Nat)
    (right : List Char) :
    sliceBytes start (byteLength left + stop : Nat) (left ++ right) =
      ((sliceBytes start (byteLength left : Nat) left).1 ++ (sliceBytes (0 : Nat) stop right).1,
        (sliceBytes start (byteLength left : Nat) left).2 || (sliceBytes (0 : Nat) stop right).2) := by
  have hleft : cutBytes start (byteLength left + min stop (byteLength right)) 0 left =
      cutBytes start (byteLength left) 0 left :=
    cutBytes_congr (.inl rfl) (.inr ⟨by omega, by omega⟩)
  have hright : cutBytes start (byteLength left + min stop (byteLength right)) (byteLength left) right =
      cutBytes (byteLength left + 0) (byteLength left + min stop (byteLength right)) (byteLength left + 0) right :=
    cutBytes_congr (.inr ⟨hstart, Nat.le_refl _⟩) (.inl rfl)
  simp only [sliceBytes_natCast]
  rw [byteLength_append, Nat.add_min_add_left, Nat.min_eq_left (by omega), Nat.min_eq_left hstart,
    Nat.min_self, Nat.zero_min, cutBytes_append, Nat.zero_add, hleft, hright, cutBytes_shift]

/-- The stretch from the first byte of a part to its last one is the part. -/
theorem exactSlice?_parts (before part after : List Char) :
    exactSlice? (byteLength before : Nat) (byteLength before + byteLength part : Nat)
      (before ++ part ++ after) = some part := by
  rw [exactSlice?, sliceBytes, clamp_natCast, clamp_natCast, byteLength_append, byteLength_append,
    Nat.min_eq_left (by omega), Nat.min_eq_left (by omega), cutBytes_parts _ _ (Nat.le_refl _),
    cutBytes_behind (Nat.le_refl _), List.append_nil]

theorem exactSlice?_past_end (before part : List Char) :
    exactSlice? (byteLength before : Nat) (byteLength before + byteLength part + 1 : Nat)
      (before ++ part) = some part := by
  have hwhole := cutBytes_parts before part (Nat.le_refl _) []
  rw [List.append_nil] at hwhole
  rw [exactSlice?, sliceBytes, clamp_natCast, clamp_natCast, byteLength_append,
    Nat.min_eq_left (by omega), Nat.min_eq_right (by omega), hwhole, cutBytes, List.append_nil]

/-- One byte more takes the next character, or tears it. -/
theorem exactSlice?_through_next (before part : List Char) (next : Char) (after : List Char) :
    exactSlice? (byteLength before : Nat) (byteLength before + byteLength part + 1 : Nat)
      (before ++ part ++ next :: after) = if next.utf8Size = 1 then some (part ++ [next]) else none := by
  have hsize := next.utf8Size_pos
  rw [exactSlice?, sliceBytes, clamp_natCast, clamp_natCast, byteLength_append, byteLength_append,
    byteLength_cons, Nat.min_eq_left (by omega), Nat.min_eq_left (by omega),
    cutBytes_parts _ _ (Nat.le_add_right _ 1), cutBytes_cons, cutBytes_behind (by omega)]
  by_cases hsingle : next.utf8Size = 1
  · rw [if_pos (by omega), if_pos hsingle]
  · rw [if_neg (by omega), if_pos (by omega), if_neg hsingle]

/-- A stretch that starts inside a text or at its end and is not empty there can be cut out exactly where it
starts and stops between characters. -/
theorem exactSlice?_eq_some_iff {start stop : Nat} {text part : List Char} (hlt : start < stop)
    (hstart : start ≤ byteLength text) :
    exactSlice? start stop text = some part ↔ ∃ before after, text = before ++ part ++ after ∧
      byteLength before = start ∧ byteLength (before ++ part) = min stop (byteLength text) := by
  have hcut : exactSlice? start stop text = some part ↔
      cutBytes start (min stop (byteLength text)) 0 text = (part, false) := by
    rw [exactSlice?, sliceBytes_natCast, Nat.min_eq_left hstart]
    generalize cutBytes start (min stop (byteLength text)) 0 text = cut
    obtain ⟨kept, torn⟩ := cut
    cases torn <;> simp
  rw [hcut]
  constructor
  · intro hcut
    rcases Nat.eq_or_lt_of_le hstart with rfl | hinside
    · rw [Nat.min_eq_right (Nat.le_of_lt hlt), cutBytes_before (by omega)] at hcut
      cases hcut
      exact ⟨text, [], by simp, rfl, by simp [Nat.le_of_lt hlt]⟩
    · simpa using exists_append_of_cutBytes (Nat.zero_le _) (by omega) (by omega) hcut
  · rintro ⟨before, after, htext, rfl, hstop⟩
    rw [← hstop, htext, byteLength_append, cutBytes_parts _ _ (Nat.le_refl _),
      cutBytes_behind (Nat.le_refl _), List.append_nil]

/-! ### Characters of one byte -/

theorem toNat_toUInt8 {c : Char} (hsingle : c.utf8Size = 1) : c.toUInt8.toNat = c.val.toNat := by
  have hle : c.val.toNat ≤ 127 := Char.utf8Size_eq_one_iff.1 hsingle
  rw [Char.toUInt8, UInt32.toNat_toUInt8]
  omega

theorem toUInt8_inj {c d : Char} (hc : c.utf8Size = 1) (hd : d.utf8Size = 1) :
    c.toUInt8 = d.toUInt8 ↔ c = d := by
  refine ⟨fun hsame => ?_, fun hsame => by rw [hsame]⟩
  have hnumber := congrArg UInt8.toNat hsame
  rw [toNat_toUInt8 hc, toNat_toUInt8 hd] at hnumber
  exact Char.ext (UInt32.toNat_inj.1 hnumber)

/-- The bytes of a character that has several are none of those that stand for a character alone. -/
theorem le_of_mem_utf8EncodeChar {c : Char} (hsize : c.utf8Size ≠ 1) {byte : UInt8}
    (hbyte : byte ∈ String.utf8EncodeChar c) : 128 ≤ byte.toNat := by
  have hlarge : ¬ c.val.toNat ≤ 127 := fun hle => hsize (Char.utf8Size_eq_one_iff.2 hle)
  have hhigh (n : Nat) (hle : 128 ≤ n) (hlt : n < 256) : 128 ≤ (UInt8.ofNat n).toNat := by
    rw [UInt8.toNat_ofNat', Nat.mod_eq_of_lt hlt]
    exact hle
  rw [String.utf8EncodeChar] at hbyte
  simp only [if_neg hlarge] at hbyte
  split at hbyte
  · simp only [List.mem_cons, List.not_mem_nil, or_false] at hbyte
    rcases hbyte with rfl | rfl <;> exact hhigh _ (by omega) (by omega)
  · split at hbyte
    · simp only [List.mem_cons, List.not_mem_nil, or_false] at hbyte
      rcases hbyte with rfl | rfl | rfl <;> exact hhigh _ (by omega) (by omega)
    · simp only [List.mem_cons, List.not_mem_nil, or_false] at hbyte
      rcases hbyte with rfl | rfl | rfl | rfl <;> exact hhigh _ (by omega) (by omega)

theorem getElem?_utf8EncodeChar_eq_some_iff {sign : Char} (hsign : sign.utf8Size = 1) {c : Char} {place : Nat} :
    (String.utf8EncodeChar c)[place]? = some sign.toUInt8 ↔ place = 0 ∧ c = sign := by
  by_cases hsingle : c.utf8Size = 1
  · rw [String.utf8EncodeChar_eq_singleton hsingle, List.getElem?_singleton]
    split
    · next hzero => rw [Option.some.injEq, and_iff_right hzero]; exact toUInt8_inj hsingle hsign
    · next hplace => simp [hplace]
  · refine iff_of_false (fun hbyte => ?_) (fun hsame => hsingle (hsame.2 ▸ hsign))
    have hhigh := le_of_mem_utf8EncodeChar hsingle (List.mem_of_getElem? hbyte)
    have hlow : sign.val.toNat ≤ 127 := Char.utf8Size_eq_one_iff.1 hsign
    rw [toNat_toUInt8 hsign] at hhigh
    omega

/-- A byte that stands for a character alone is found where that character is. -/
theorem getElem?_utf8Encode_eq_some_iff {sign : Char} (hsign : sign.utf8Size = 1) {text : List Char}
    {place : Nat} :
    text.utf8Encode[place]? = some sign.toUInt8 ↔
      ∃ before after, text = before ++ sign :: after ∧ byteLength before = place := by
  have hlist : text.utf8Encode[place]? = (text.flatMap String.utf8EncodeChar)[place]? := by
    show (List.toByteArray _).data[place]? = _
    rw [List.data_toByteArray, List.getElem?_toArray]
  rw [hlist]
  clear hlist
  induction text generalizing place with
  | nil => simp
  | cons c text ih =>
      have hlength := String.length_utf8EncodeChar c
      have hpos := c.utf8Size_pos
      rw [List.flatMap_cons]
      by_cases hinside : place < c.utf8Size
      · rw [List.getElem?_append_left (by omega), getElem?_utf8EncodeChar_eq_some_iff hsign]
        constructor
        · rintro ⟨rfl, rfl⟩
          exact ⟨[], text, rfl, rfl⟩
        · rintro ⟨before, after, htext, rfl⟩
          cases before with
          | nil => exact ⟨rfl, (List.cons.inj htext).1⟩
          | cons first before =>
              obtain ⟨rfl, -⟩ := List.cons.inj htext
              rw [byteLength_cons] at hinside
              omega
      · rw [List.getElem?_append_right (by omega), hlength]
        refine ih.trans ?_
        constructor
        · rintro ⟨before, after, rfl, hplace⟩
          exact ⟨c :: before, after, rfl, by rw [byteLength_cons]; omega⟩
        · rintro ⟨before, after, htext, rfl⟩
          cases before with
          | nil => exact absurd hpos hinside
          | cons first before =>
              obtain ⟨rfl, rfl⟩ := List.cons.inj htext
              exact ⟨before, after, rfl, by rw [byteLength_cons]; omega⟩

theorem getElem?_utf8Encode_append {sign : Char} (hsign : sign.utf8Size = 1) {front rest : List Char}
    {place : Nat} (hplace : byteLength front = place) :
    (front ++ rest).utf8Encode[place]? = some sign.toUInt8 ↔ ∃ after, rest = sign :: after := by
  rw [getElem?_utf8Encode_eq_some_iff hsign]
  constructor
  · rintro ⟨before, after, hsame, hlength⟩
    exact ⟨after, (append_inj_of_byteLength hsame (hplace.trans hlength.symm)).2⟩
  · rintro ⟨after, rfl⟩
    exact ⟨front, after, rfl, hplace⟩

end ProofDump.Text
