import Mathlib.Data.List.Basic
import ProofDump.Text.Utf8

/-!
# Bytes and the texts that they write

The pieces that bytes are taken apart into make up the bytes again (`flatMap_bytes_pieces`), and the pieces of
the bytes of a text are its characters (`pieces_encode_append`). So a text is read from just the bytes that
write it (`decode_eq_ok_iff`). A beginning of the bytes of a character writes none, and neither does an end.
-/

namespace ProofDump.Text

/-! ### Taking bytes one by one -/

/-- The byte is in the range. -/
def IsWithin (range : Nat × Nat) (byte : UInt8) : Prop := range.1 ≤ byte.toNat ∧ byte.toNat ≤ range.2

theorem piecesFrom_cons (opened : Option Begun) (byte : UInt8) (rest : List UInt8) :
    piecesFrom opened (byte :: rest) = (feed opened byte).1 ++ piecesFrom (feed opened byte).2 rest := rfl

section Owed

variable {bytes : List UInt8} {number : Nat} {range next : Nat × Nat} {owed : List (Nat × Nat)} {byte : UInt8}

theorem feed_owed (hbyte : IsWithin range byte) :
    feed (some ⟨bytes, number, range :: owed⟩) byte =
      Begun.settle ⟨bytes ++ [byte], number * 64 + (byte.toNat - 0x80), owed⟩ :=
  if_pos hbyte

theorem piecesFrom_owed (hbyte : IsWithin range byte) (rest : List UInt8) :
    piecesFrom (some ⟨bytes, number, range :: next :: owed⟩) (byte :: rest) =
      piecesFrom (some ⟨bytes ++ [byte], number * 64 + (byte.toNat - 0x80), next :: owed⟩) rest := by
  rw [piecesFrom_cons, feed_owed hbyte]
  rfl

theorem piecesFrom_last (hbyte : IsWithin range byte) (rest : List UInt8) :
    piecesFrom (some ⟨bytes, number, [range]⟩) (byte :: rest) =
      .char (Char.ofNat (number * 64 + (byte.toNat - 0x80))) :: pieces rest := by
  rw [piecesFrom_cons, feed_owed hbyte]
  rfl

theorem pieces_begun (hbegun : begun? byte = some ⟨bytes, number, range :: owed⟩) (rest : List UInt8) :
    pieces (byte :: rest) = piecesFrom (some ⟨bytes, number, range :: owed⟩) rest := by
  rw [pieces, piecesFrom_cons]
  show (feedFirst byte).1 ++ piecesFrom (feedFirst byte).2 rest = _
  rw [feedFirst, hbegun]
  rfl

end Owed

section Characters

variable {byte a b c : UInt8}

theorem pieces_one (hbyte : byte.toNat < 0x80) (rest : List UInt8) :
    pieces (byte :: rest) = .char (Char.ofNat byte.toNat) :: pieces rest := by
  have hbegun : begun? byte = some ⟨[byte], byte.toNat, []⟩ := if_pos hbyte
  rw [pieces, piecesFrom_cons]
  show (feedFirst byte).1 ++ piecesFrom (feedFirst byte).2 rest = _
  rw [feedFirst, hbegun]
  rfl

theorem pieces_two (hlow : 0xC2 ≤ byte.toNat) (hhigh : byte.toNat < 0xE0) (ha : IsWithin (second byte.toNat) a)
    (rest : List UInt8) :
    pieces (byte :: a :: rest) =
      .char (Char.ofNat ((byte.toNat - 0xC0) * 64 + (a.toNat - 0x80))) :: pieces rest := by
  have hbegun : begun? byte = some ⟨[byte], byte.toNat - 0xC0, [second byte.toNat]⟩ := by
    rw [begun?, if_neg (by omega), if_neg (by omega), if_pos hhigh]
  rw [pieces_begun hbegun, piecesFrom_last ha]

theorem pieces_three (hlow : 0xE0 ≤ byte.toNat) (hhigh : byte.toNat < 0xF0) (ha : IsWithin (second byte.toNat) a)
    (hb : IsWithin follower b) (rest : List UInt8) :
    pieces (byte :: a :: b :: rest) =
      .char (Char.ofNat (((byte.toNat - 0xE0) * 64 + (a.toNat - 0x80)) * 64 + (b.toNat - 0x80))) ::
        pieces rest := by
  have hbegun : begun? byte = some ⟨[byte], byte.toNat - 0xE0, [second byte.toNat, follower]⟩ := by
    rw [begun?, if_neg (by omega), if_neg (by omega), if_neg (by omega), if_pos hhigh]
  rw [pieces_begun hbegun, piecesFrom_owed ha, piecesFrom_last hb]

theorem pieces_four (hlow : 0xF0 ≤ byte.toNat) (hhigh : byte.toNat < 0xF5) (ha : IsWithin (second byte.toNat) a)
    (hb : IsWithin follower b) (hc : IsWithin follower c) (rest : List UInt8) :
    pieces (byte :: a :: b :: c :: rest) =
      .char (Char.ofNat ((((byte.toNat - 0xF0) * 64 + (a.toNat - 0x80)) * 64 + (b.toNat - 0x80)) * 64 +
        (c.toNat - 0x80))) :: pieces rest := by
  have hbegun : begun? byte = some ⟨[byte], byte.toNat - 0xF0, [second byte.toNat, follower, follower]⟩ := by
    rw [begun?, if_neg (by omega), if_neg (by omega), if_neg (by omega), if_neg (by omega), if_pos hhigh]
  rw [pieces_begun hbegun, piecesFrom_owed ha, piecesFrom_owed hb, piecesFrom_last hc]

end Characters

/-! ### The bytes of a text -/

theorem toNat_ofNat_byte {n : Nat} (hn : n < 256) : (UInt8.ofNat n).toNat = n := by
  rw [UInt8.toNat_ofNat']
  exact Nat.mod_eq_of_lt hn

theorem isWithin_second_iff {first : Nat} {byte : UInt8} :
    IsWithin (second first) byte ↔ 0x80 ≤ byte.toNat ∧ byte.toNat ≤ 0xBF ∧ (first = 0xE0 → 0xA0 ≤ byte.toNat) ∧
      (first = 0xED → byte.toNat ≤ 0x9F) ∧ (first = 0xF0 → 0x90 ≤ byte.toNat) ∧
      (first = 0xF4 → byte.toNat ≤ 0x8F) := by
  unfold IsWithin second follower
  split_ifs <;> omega

theorem isWithin_follower (n : Nat) : IsWithin follower (UInt8.ofNat (n % 64 + 128)) := by
  rw [IsWithin, toNat_ofNat_byte (by omega), follower]
  omega

theorem pieces_utf8EncodeChar_append (c : Char) (rest : List UInt8) :
    pieces (String.utf8EncodeChar c ++ rest) = .char c :: pieces rest := by
  have hvalid : c.toNat < 0xD800 ∨ 0xDFFF < c.toNat ∧ c.toNat < 0x110000 := c.valid
  have hchar := Char.ofNat_toNat c
  have hval : c.val.toNat = c.toNat := rfl
  rw [String.utf8EncodeChar, hval]
  generalize c.toNat = n at hvalid hchar
  by_cases hone : n ≤ 127
  · have hfirst := toNat_ofNat_byte (n := n) (by omega)
    rw [if_pos hone]
    refine (pieces_one (by omega) rest).trans ?_
    rw [hfirst, hchar]
  by_cases htwo : n ≤ 2047
  · have hfirst := toNat_ofNat_byte (n := n / 64 % 32 + 192) (by omega)
    have hsecond := toNat_ofNat_byte (n := n % 64 + 128) (by omega)
    rw [if_neg hone, if_pos htwo]
    refine (pieces_two (by omega) (by omega) ?_ rest).trans ?_
    · rw [hfirst, isWithin_second_iff, hsecond]
      omega
    · have hnumber : (n / 64 % 32 + 192 - 0xC0) * 64 + (n % 64 + 128 - 0x80) = n := by omega
      rw [hfirst, hsecond, hnumber, hchar]
  by_cases hthree : n ≤ 65535
  · have hfirst := toNat_ofNat_byte (n := n / 4096 % 16 + 224) (by omega)
    have hsecond := toNat_ofNat_byte (n := n / 64 % 64 + 128) (by omega)
    have hthird := toNat_ofNat_byte (n := n % 64 + 128) (by omega)
    rw [if_neg hone, if_neg htwo, if_pos hthree]
    refine (pieces_three (by omega) (by omega) ?_ (isWithin_follower _) rest).trans ?_
    · rw [hfirst, isWithin_second_iff, hsecond]
      omega
    · have hnumber : ((n / 4096 % 16 + 224 - 0xE0) * 64 + (n / 64 % 64 + 128 - 0x80)) * 64 +
          (n % 64 + 128 - 0x80) = n := by omega
      rw [hfirst, hsecond, hthird, hnumber, hchar]
  · have hfirst := toNat_ofNat_byte (n := n / 262144 % 8 + 240) (by omega)
    have hsecond := toNat_ofNat_byte (n := n / 4096 % 64 + 128) (by omega)
    have hthird := toNat_ofNat_byte (n := n / 64 % 64 + 128) (by omega)
    have hfourth := toNat_ofNat_byte (n := n % 64 + 128) (by omega)
    rw [if_neg hone, if_neg htwo, if_neg hthree]
    refine (pieces_four (by omega) (by omega) ?_ (isWithin_follower _) (isWithin_follower _) rest).trans ?_
    · rw [hfirst, isWithin_second_iff, hsecond]
      omega
    · have hnumber : (((n / 262144 % 8 + 240 - 0xF0) * 64 + (n / 4096 % 64 + 128 - 0x80)) * 64 +
          (n / 64 % 64 + 128 - 0x80)) * 64 + (n % 64 + 128 - 0x80) = n := by omega
      rw [hfirst, hsecond, hthird, hfourth, hnumber, hchar]

/-- The pieces of the bytes of a text are its characters. -/
theorem pieces_encode_append (text : List Char) (rest : List UInt8) :
    pieces (encode text ++ rest) = text.map .char ++ pieces rest := by
  induction text with
  | nil => rfl
  | cons c text ih =>
      rw [encode, List.flatMap_cons, List.append_assoc, pieces_utf8EncodeChar_append, ← encode, ih]
      rfl

/-! ### The bytes of pieces -/

/-- The bytes that a piece was made of. -/
def Piece.bytes : Piece → List UInt8
  | char c => String.utf8EncodeChar c
  | flawed bytes _ => bytes

/-- With whatever bytes that are owed, the bytes of the character are those that write its number. -/
def IsSound (bytes : List UInt8) (number : Nat) : List (Nat × Nat) → Prop
  | [] => String.utf8EncodeChar (Char.ofNat number) = bytes
  | range :: owed =>
    ∀ byte, IsWithin range byte → IsSound (bytes ++ [byte]) (number * 64 + (byte.toNat - 0x80)) owed

theorem utf8EncodeChar_ofNat {n : Nat} (hn : n < 0xD800 ∨ 0xDFFF < n ∧ n < 0x110000) :
    String.utf8EncodeChar (Char.ofNat n) =
      if n ≤ 127 then [UInt8.ofNat n]
      else if n ≤ 2047 then [UInt8.ofNat (n / 64 % 32 + 192), UInt8.ofNat (n % 64 + 128)]
      else if n ≤ 65535 then
        [UInt8.ofNat (n / 4096 % 16 + 224), UInt8.ofNat (n / 64 % 64 + 128), UInt8.ofNat (n % 64 + 128)]
      else [UInt8.ofNat (n / 262144 % 8 + 240), UInt8.ofNat (n / 4096 % 64 + 128),
        UInt8.ofNat (n / 64 % 64 + 128), UInt8.ofNat (n % 64 + 128)] := by
  have hval : (Char.ofNat n).val.toNat = n := by
    rw [Char.ofNat, dif_pos hn]
    rfl
  rw [String.utf8EncodeChar, hval]

theorem ofNat_eq_byte {n : Nat} {byte : UInt8} (hn : n = byte.toNat) : UInt8.ofNat n = byte := by
  rw [hn, UInt8.ofNat_toNat]

theorem isSound_one {byte : UInt8} (hbyte : byte.toNat < 0x80) : IsSound [byte] byte.toNat [] := by
  rw [IsSound, utf8EncodeChar_ofNat (by omega), if_pos (by omega), UInt8.ofNat_toNat]

theorem isSound_two {byte : UInt8} (hlow : 0xC2 ≤ byte.toNat) (hhigh : byte.toNat < 0xE0) :
    IsSound [byte] (byte.toNat - 0xC0) [second byte.toNat] := by
  intro a ha
  obtain ⟨hlowA, hhighA, -⟩ := isWithin_second_iff.1 ha
  show String.utf8EncodeChar _ = [byte, a]
  rw [utf8EncodeChar_ofNat (by omega), if_neg (by omega), if_pos (by omega), ofNat_eq_byte, ofNat_eq_byte]
  · omega
  · omega

theorem isSound_three {byte : UInt8} (hlow : 0xE0 ≤ byte.toNat) (hhigh : byte.toNat < 0xF0) :
    IsSound [byte] (byte.toNat - 0xE0) [second byte.toNat, follower] := by
  intro a ha b hb
  have hboundsA := isWithin_second_iff.1 ha
  have hboundsB : 0x80 ≤ b.toNat ∧ b.toNat ≤ 0xBF := hb
  show String.utf8EncodeChar _ = [byte, a, b]
  rw [utf8EncodeChar_ofNat (by omega), if_neg (by omega), if_neg (by omega), if_pos (by omega), ofNat_eq_byte,
    ofNat_eq_byte, ofNat_eq_byte]
  · omega
  · omega
  · omega

theorem isSound_four {byte : UInt8} (hlow : 0xF0 ≤ byte.toNat) (hhigh : byte.toNat < 0xF5) :
    IsSound [byte] (byte.toNat - 0xF0) [second byte.toNat, follower, follower] := by
  intro a ha b hb c hc
  have hboundsA := isWithin_second_iff.1 ha
  have hboundsB : 0x80 ≤ b.toNat ∧ b.toNat ≤ 0xBF := hb
  have hboundsC : 0x80 ≤ c.toNat ∧ c.toNat ≤ 0xBF := hc
  show String.utf8EncodeChar _ = [byte, a, b, c]
  rw [utf8EncodeChar_ofNat (by omega), if_neg (by omega), if_neg (by omega), if_neg (by omega), ofNat_eq_byte,
    ofNat_eq_byte, ofNat_eq_byte, ofNat_eq_byte]
  · omega
  · omega
  · omega
  · omega

theorem begun?_isSound {byte : UInt8} {begun : Begun} (hbegun : begun? byte = some begun) :
    begun.bytes = [byte] ∧ IsSound begun.bytes begun.number begun.owed := by
  unfold begun? at hbegun
  dsimp only at hbegun
  split_ifs at hbegun
  · cases hbegun
    exact ⟨rfl, isSound_one ‹_›⟩
  · cases hbegun
    exact ⟨rfl, isSound_two (by omega) ‹_›⟩
  · cases hbegun
    exact ⟨rfl, isSound_three (by omega) ‹_›⟩
  · cases hbegun
    exact ⟨rfl, isSound_four (by omega) ‹_›⟩

/-- The bytes of the character that is open. -/
def openBytes (opened : Option Begun) : List UInt8 := (opened.map Begun.bytes).getD []

/-- To the character that is open, if one is, bytes are owed, and with them it is sound. -/
def IsOpen (opened : Option Begun) : Prop :=
  ∀ begun ∈ opened, begun.owed ≠ [] ∧ IsSound begun.bytes begun.number begun.owed

/-- No byte is lost. -/
structure Keeps (bytes : List UInt8) (result : List Piece × Option Begun) : Prop where
  bytes_eq : result.1.flatMap Piece.bytes ++ openBytes result.2 = bytes
  isOpen : IsOpen result.2

theorem settle_keeps {bytes : List UInt8} {number : Nat} {owed : List (Nat × Nat)}
    (hsound : IsSound bytes number owed) : Keeps bytes (Begun.settle ⟨bytes, number, owed⟩) := by
  cases owed with
  | nil =>
      refine ⟨?_, fun _ hnone => by cases hnone⟩
      show String.utf8EncodeChar (Char.ofNat number) ++ [] ++ [] = bytes
      rw [List.append_nil, List.append_nil]
      exact hsound
  | cons range owed =>
      refine ⟨rfl, ?_⟩
      rintro _ ⟨⟩
      exact ⟨List.cons_ne_nil _ _, hsound⟩

theorem feedFirst_keeps (byte : UInt8) : Keeps [byte] (feedFirst byte) := by
  unfold feedFirst
  cases hbegun : begun? byte with
  | none => exact ⟨rfl, fun _ hnone => by cases hnone⟩
  | some begun =>
      obtain ⟨hbytes, hsound⟩ := begun?_isSound hbegun
      rw [← hbytes]
      exact settle_keeps hsound

theorem feed_keeps {opened : Option Begun} (hopen : IsOpen opened) (byte : UInt8) :
    Keeps (openBytes opened ++ [byte]) (feed opened byte) := by
  cases opened with
  | none => exact feedFirst_keeps byte
  | some begun =>
      obtain ⟨howed, hsound⟩ := hopen begun rfl
      obtain ⟨bytes, number, owed⟩ := begun
      obtain ⟨range, owed, rfl⟩ := List.exists_cons_of_ne_nil howed
      by_cases hbyte : IsWithin range byte
      · rw [feed_owed hbyte]
        exact settle_keeps (hsound byte hbyte)
      · have hfeed : feed (some ⟨bytes, number, range :: owed⟩) byte =
            (.flawed bytes .continuation :: (feedFirst byte).1, (feedFirst byte).2) := if_neg hbyte
        obtain ⟨hbytes, hnext⟩ := feedFirst_keeps byte
        rw [hfeed]
        refine ⟨?_, hnext⟩
        rw [List.flatMap_cons, List.append_assoc, hbytes]
        rfl

theorem flatMap_bytes_piecesFrom {opened : Option Begun} (hopen : IsOpen opened) (bytes : List UInt8) :
    (piecesFrom opened bytes).flatMap Piece.bytes = openBytes opened ++ bytes := by
  induction bytes generalizing opened with
  | nil =>
      cases opened with
      | none => rfl
      | some begun => rfl
  | cons byte bytes ih =>
      obtain ⟨hbytes, hnext⟩ := feed_keeps hopen byte
      rw [piecesFrom_cons, List.flatMap_append, ih hnext, ← List.append_assoc, hbytes, List.append_assoc]
      rfl

/-- The pieces of bytes make up the bytes. -/
theorem flatMap_bytes_pieces (bytes : List UInt8) : (pieces bytes).flatMap Piece.bytes = bytes :=
  flatMap_bytes_piecesFrom (fun _ hnone => by cases hnone) bytes

/-! ### Decoding -/

theorem textFrom_eq_ok_iff {offset : Nat} {all : List Piece} {text : List Char} :
    textFrom offset all = .ok text ↔ all = text.map .char := by
  induction all generalizing offset text with
  | nil =>
      rw [textFrom]
      cases text with
      | nil => exact iff_of_true rfl rfl
      | cons c text => exact iff_of_false (fun hok => by cases hok) (fun hnil => by cases hnil)
  | cons piece all ih =>
      cases piece with
      | flawed bytes flaw =>
          refine iff_of_false (fun hok => by cases hok) (fun hall => ?_)
          cases text with
          | nil => cases hall
          | cons c text => cases hall
      | char c =>
          rw [textFrom]
          cases hrest : textFrom (offset + c.utf8Size) all with
          | error defect =>
              refine iff_of_false (fun hok => by cases hok) (fun hall => ?_)
              cases text with
              | nil => cases hall
              | cons d text =>
                  rw [List.map_cons, List.cons.injEq] at hall
                  rw [ih.2 hall.2] at hrest
                  cases hrest
          | ok rest =>
              have hall := ih.1 hrest
              subst hall
              show Except.ok (c :: rest) = .ok text ↔ (c :: rest).map Piece.char = text.map Piece.char
              rw [Except.ok.injEq, List.map_inj_right fun _ _ hsame => Piece.char.inj hsame]

/-- Bytes are read as a text if they are the ones that write it. -/
theorem decode_eq_ok_iff {bytes : List UInt8} {text : List Char} :
    decode bytes = .ok text ↔ bytes = encode text := by
  rw [decode, textFrom_eq_ok_iff]
  constructor
  · intro hpieces
    rw [← flatMap_bytes_pieces bytes, hpieces, List.flatMap_map]
    rfl
  · rintro rfl
    have hpieces := pieces_encode_append text []
    rw [List.append_nil] at hpieces
    rw [hpieces]
    exact List.append_nil _

/-! ### Parts of characters -/

/-- What bytes come to does not depend on the bytes after them. -/
theorem exists_piecesFrom_append (opened : Option Begun) (bytes : List UInt8) :
    ∃ done next, ∀ rest, piecesFrom opened (bytes ++ rest) = done ++ piecesFrom next rest := by
  induction bytes generalizing opened with
  | nil => exact ⟨[], opened, fun _ => rfl⟩
  | cons byte bytes ih =>
      obtain ⟨done, next, hrest⟩ := ih (feed opened byte).2
      refine ⟨(feed opened byte).1 ++ done, next, fun rest => ?_⟩
      rw [List.cons_append, piecesFrom_cons, hrest, List.append_assoc]

theorem decodeSound_encode_append (text : List Char) (rest : List UInt8) :
    decodeSound (encode text ++ rest) = text ++ decodeSound rest := by
  rw [decodeSound, pieces_encode_append, List.filterMap_append, List.filterMap_map]
  congr 1
  exact List.filterMap_some

/-- A beginning of the bytes of a character writes nothing. -/
theorem decodeSound_of_prefix {c : Char} {front back : List UInt8} (hparts : String.utf8EncodeChar c = front ++ back)
    (hback : back ≠ []) : decodeSound front = [] := by
  obtain ⟨done, next, hpieces⟩ := exists_piecesFrom_append none front
  have hwhole := pieces_utf8EncodeChar_append c []
  rw [List.append_nil, hparts, pieces, hpieces back] at hwhole
  have hfront := hpieces []
  rw [List.append_nil] at hfront
  rw [decodeSound, pieces, hfront, List.filterMap_append]
  have hopen : (piecesFrom next []).filterMap Piece.char? = [] := by
    cases next with
    | none => rfl
    | some begun => rfl
  rw [hopen, List.append_nil]
  rcases List.append_eq_cons_iff.1 hwhole with ⟨rfl, -⟩ | ⟨later, rfl, -⟩
  · rfl
  · -- The whole character cannot have come from less than its bytes.
    have hbytes := flatMap_bytes_pieces front
    rw [pieces, hfront, List.cons_append, List.flatMap_cons] at hbytes
    have hlength := congrArg List.length hbytes
    have hlonger := congrArg List.length hparts
    have hpos := List.length_pos_iff.2 hback
    simp only [List.length_append, Piece.bytes] at hlength hlonger
    omega

theorem pieces_follower {byte : UInt8} (hbyte : IsWithin follower byte) (rest : List UInt8) :
    pieces (byte :: rest) = .flawed [byte] .start :: pieces rest := by
  have hbounds : 0x80 ≤ byte.toNat ∧ byte.toNat ≤ 0xBF := hbyte
  have hbegun : begun? byte = none := by rw [begun?, if_neg (by omega), if_pos (by omega)]
  rw [pieces, piecesFrom_cons]
  show (feedFirst byte).1 ++ piecesFrom (feedFirst byte).2 rest = _
  rw [feedFirst, hbegun]
  rfl

theorem decodeSound_followers_append {bytes : List UInt8} (hbytes : ∀ byte ∈ bytes, IsWithin follower byte)
    (rest : List UInt8) : decodeSound (bytes ++ rest) = decodeSound rest := by
  induction bytes with
  | nil => rfl
  | cons byte bytes ih =>
      rw [List.forall_mem_cons] at hbytes
      rw [List.cons_append, decodeSound, pieces_follower hbytes.1, ← ih hbytes.2]
      rfl

/-- All bytes of a character but the first go on with one. -/
theorem isWithin_follower_of_mem_tail {c : Char} {byte : UInt8} (hbyte : byte ∈ (String.utf8EncodeChar c).tail) :
    IsWithin follower byte := by
  rw [String.utf8EncodeChar] at hbyte
  split_ifs at hbyte
  · cases hbyte
  · obtain rfl := List.mem_singleton.1 hbyte
    exact isWithin_follower _
  · simp only [List.tail_cons, List.mem_cons, List.not_mem_nil, or_false] at hbyte
    rcases hbyte with rfl | rfl <;> exact isWithin_follower _
  · simp only [List.tail_cons, List.mem_cons, List.not_mem_nil, or_false] at hbyte
    rcases hbyte with rfl | rfl | rfl <;> exact isWithin_follower _

theorem isWithin_follower_of_mem_drop {c : Char} {n : Nat} (hn : 0 < n) :
    ∀ byte ∈ (String.utf8EncodeChar c).drop n, IsWithin follower byte := by
  intro byte hbyte
  obtain ⟨n, rfl⟩ := Nat.exists_eq_add_one.2 hn
  rw [← List.drop_tail] at hbyte
  exact isWithin_follower_of_mem_tail (List.mem_of_mem_drop hbyte)

/-- A part of the bytes of a character writes nothing. -/
theorem decodeSound_torn {c : Char} {stop : Nat} (hstop : stop < c.utf8Size) (start : Nat) :
    decodeSound (((String.utf8EncodeChar c).take stop).drop start) = [] := by
  rcases Nat.eq_zero_or_pos start with rfl | hstart
  · refine decodeSound_of_prefix (List.take_append_drop _ _).symm ?_
    rw [ne_eq, List.drop_eq_nil_iff, String.length_utf8EncodeChar]
    omega
  · have hfollowers : ∀ byte ∈ ((String.utf8EncodeChar c).take stop).drop start, IsWithin follower byte := by
      intro byte hbyte
      rw [List.drop_take] at hbyte
      exact isWithin_follower_of_mem_drop hstart byte (List.mem_of_mem_take hbyte)
    have hskip := decodeSound_followers_append hfollowers []
    rw [List.append_nil] at hskip
    exact hskip

end ProofDump.Text
