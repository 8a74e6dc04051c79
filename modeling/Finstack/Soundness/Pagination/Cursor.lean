import Finstack.Model.Pagination.Cursor
import Finstack.Soundness.Pagination.Dates

/-! # Cursors are read back

What `encodeCursor` writes `decodeCursor` reads, to the millisecond and the last digit.
-/

namespace Finstack

open Foundation

/-! ## UUIDs -/

theorem idxOf_hexDigit (digit : Nat) : hexAlphabet.idxOf (hexDigit digit).toLower = digit % 16 := by
  have each : ∀ d < 16, hexAlphabet.idxOf (hexDigit d).toLower = d := by decide
  exact hexDigit_mod digit ▸ each (digit % 16) (Nat.mod_lt _ (by decide))

theorem hexNumber_append (digits : List Char) (c : Char) :
    hexNumber (digits ++ [c]) = hexNumber digits * 16 + hexAlphabet.idxOf c.toLower := by
  rw [hexNumber, List.foldl_append]
  rfl

theorem hexNumber_hexDigits (count value : Nat) : hexNumber (hexDigits count value) = value % 16 ^ count := by
  induction count generalizing value with
  | zero => rw [Nat.pow_zero, Nat.mod_one, hexDigits, hexNumber, List.foldl_nil]
  | succ count ih =>
    rw [hexDigits, hexNumber_append, ih, idxOf_hexDigit, Nat.pow_succ, Nat.mul_comm (16 ^ count), Nat.mod_mul]
    omega

/-- The five groups of a UUID's text. -/
def uuidGroups (id : Uuid) : List (List Char) :=
  let digits := hexDigits 32 id
  [digits.take 8, (digits.drop 8).take 4, (digits.drop 12).take 4, (digits.drop 16).take 4, digits.drop 20]

theorem uuidText_eq (id : Uuid) : (uuidText id).toList = ['-'].intercalate (uuidGroups id) := by
  simp [uuidText, uuidGroups, List.intercalate, List.intersperse]

theorem uuidGroups_flatten (id : Uuid) : (uuidGroups id).flatten = hexDigits 32 id := by
  have length := length_hexDigits 32 id
  simp only [uuidGroups]
  generalize hexDigits 32 id = digits at length
  have cut : ∀ start count, (digits.drop start).take count ++ digits.drop (start + count) = digits.drop start :=
    fun start count => by rw [← List.drop_drop, List.take_append_drop]
  simp only [List.flatten_cons, List.flatten_nil, List.append_nil, cut 16 4, cut 12 4, cut 8 4,
    List.take_append_drop]

theorem mem_uuidGroups {id : Uuid} {group : List Char} (member : group ∈ uuidGroups id) :
    ∀ c ∈ group, c ∈ hexDigits 32 id := by
  intro c present
  rw [← uuidGroups_flatten id]
  exact List.mem_flatten.mpr ⟨group, member, present⟩

theorem splitOn_uuidText (id : Uuid) : (uuidText id).toList.splitOn '-' = uuidGroups id := by
  rw [uuidText_eq]
  refine List.splitOn_intercalate '-' (fun group member dash => ?_) (List.cons_ne_nil _ _)
  have digits := forall_mem_hexDigits (P := (· ≠ '-')) (by decide) 32 id
  exact digits '-' (mem_uuidGroups member '-' dash) rfl

theorem UUID_uuidText (id : Uuid) : UUID (uuidText id).toList = true := by
  have lengths : (uuidGroups id).map List.length = [8, 4, 4, 4, 12] := by
    simp [uuidGroups, length_hexDigits]
  have digits := forall_mem_hexDigits (P := fun c => hexAlphabet.contains c.toLower = true) (by decide) 32 id
  simp only [UUID, splitOn_uuidText, lengths, BEq.rfl, Bool.true_and, List.all_eq_true]
  exact fun group member c present => digits c (mem_uuidGroups member c present)

theorem uuidOf_uuidText (id : Uuid) : uuidOf (uuidText id).toList = some id := by
  have value : id.val % 16 ^ 32 = id.val := Nat.mod_eq_of_lt id.isLt
  rw [uuidOf, if_pos (UUID_uuidText id), splitOn_uuidText, uuidGroups_flatten, hexNumber_hexDigits, value]
  exact congrArg some (Fin.ofNat_val_eq_self id)

/-! ## Bytes -/

namespace Engine

variable (engine : Engine)

theorem utf8Bytes_small (text : String) : ∀ b ∈ utf8Bytes text, b < 256 := by
  simp only [utf8Bytes, List.forall_mem_map]
  exact fun byte _ => byte.toNat_lt

theorem toUtf8String_utf8Bytes (text : String) : engine.toUtf8String (utf8Bytes text) = text := by
  have bytes : (⟨((utf8Bytes text).map UInt8.ofNat).toArray⟩ : ByteArray) = text.toUTF8 := by
    simp [utf8Bytes, List.map_map, Function.comp_def]
  have decoded : String.fromUTF8? text.toUTF8 = some text := dif_pos text.isValidUTF8
  simp only [toUtf8String, bytes, decoded]

theorem fromBase64url_encode {bytes : List Nat} (small : ∀ b ∈ bytes, b < 256) :
    engine.fromBase64url (String.ofList (Base64.encode bytes)) = bytes := by
  have written : (Base64.encode bytes).all Base64.alphabet.contains = true := by
    simp only [List.all_eq_true, List.contains_iff_mem]
    exact fun c member => Base64.mem_alphabet_of_mem_encode small member
  rw [fromBase64url, String.toList_ofList, if_pos written, Base64.decode_encode small]

theorem newDate_toISOString (date : Date) : engine.newDate date.toISOString = some date := by
  have read := Date.ofISOString_toISOString date
  unfold newDate
  split
  · next date' same =>
    exact same.symm.trans read
  · next none_read =>
    rw [read] at none_read
    cases none_read

end Engine

/-! ## Cursors -/

variable (engine : Engine) (cursor : Cursor)

theorem decodeCursor_encodeCursor : decodeCursor engine (encodeCursor cursor) = .ok cursor := by
  obtain ⟨createdAt, id⟩ := cursor
  have timestamp : '|' ∉ createdAt.toISOString.toList := fun bar =>
    Date.forall_mem_toISOString (P := (· ≠ '|')) (fun c digit same => by simp [same] at digit)
      (forall_mem_of_all (by decide)) createdAt '|' bar rfl
  have identifier : '|' ∉ (uuidText id).toList := fun bar =>
    forall_mem_uuidText (P := (· ≠ '|')) (by decide) (by decide) id '|' bar rfl
  have parts : (createdAt.toISOString ++ "|" ++ uuidText id).toList.splitOn '|' =
      [createdAt.toISOString.toList, (uuidText id).toList] := by
    have text : (createdAt.toISOString ++ "|" ++ uuidText id).toList =
        createdAt.toISOString.toList ++ '|' :: (uuidText id).toList := by
      simp
    rw [text, List.splitOn_append_cons_self_of_not_mem timestamp, List.splitOn_eq_singleton identifier]
  simp only [decodeCursor, encodeCursor, engine.fromBase64url_encode (Engine.utf8Bytes_small _),
    engine.toUtf8String_utf8Bytes, parts, String.ofList_toList, engine.newDate_toISOString,
    uuidOf_uuidText]

include engine in
/-- So a cursor is truthy. -/
theorem encodeCursor_ne_empty : encodeCursor cursor ≠ "" := by
  intro empty
  have nothing : Base64.encode (utf8Bytes (cursor.createdAt.toISOString ++ "|" ++ uuidText cursor.id)) = [] := by
    simpa [encodeCursor] using congrArg String.toList empty
  have bytes := Base64.decode_encode (Engine.utf8Bytes_small
    (cursor.createdAt.toISOString ++ "|" ++ uuidText cursor.id))
  rw [nothing] at bytes
  have text := engine.toUtf8String_utf8Bytes (cursor.createdAt.toISOString ++ "|" ++ uuidText cursor.id)
  rw [← bytes] at text
  have same := text.symm.trans (engine.toUtf8String_utf8Bytes "")
  simpa using congrArg (fun t => '|' ∈ t.toList) same

end Finstack
