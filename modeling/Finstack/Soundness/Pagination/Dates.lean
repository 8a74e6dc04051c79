import Finstack.Model.Pagination.Dates

/-! # Dates are read back

A date is the time that its fields add up to, and the fields are where `toISOString` puts them.
-/

namespace Finstack.Date

open Foundation

/-! ## Fields -/

theorem yearFromDay_spec (day : Int) :
    dayFromYear (yearFromDay day) ≤ day ∧ day < dayFromYear (yearFromDay day + 1) := by
  unfold yearFromDay
  dsimp only
  split_ifs with next this
  · unfold dayFromYear at next ⊢
    omega
  · exact ⟨this, by omega⟩
  · rw [Int.sub_add_cancel]
    refine ⟨?_, by omega⟩
    unfold dayFromYear
    omega

theorem dayFromYear_succ (y : Int) : dayFromYear (y + 1) - dayFromYear y ≤ 366 := by
  unfold dayFromYear
  omega

/-- A day of the year is in one of twelve months, and not far into it. -/
theorem month_spec : ∀ leap : Bool, ∀ inYear < 366,
    let month := (monthStarts leap).countP (· ≤ inYear)
    1 ≤ month ∧ month ≤ 12 ∧ (monthStarts leap).getD (month - 1) 0 ≤ inYear ∧
      inYear - (monthStarts leap).getD (month - 1) 0 < 32 := by
  decide +kernel

theorem inYear_lt (day : Int) : (day - dayFromYear (yearFromDay day)).toNat < 366 := by
  have within := yearFromDay_spec day
  have length := dayFromYear_succ (yearFromDay day)
  omega

theorem time_fields (date : Date) : date.fields.time = date.time := by
  have within := yearFromDay_spec (date.time / 86400000)
  have month := month_spec (isLeap (yearFromDay (date.time / 86400000)))
    (date.time / 86400000 - dayFromYear (yearFromDay (date.time / 86400000))).toNat (inYear_lt _)
  simp only [fields, Fields.time]
  dsimp only at month
  omega

/-! ## Texts -/

theorem number_pad (length n : Nat) : number (pad length n) = n := by
  rw [pad, number_leftpad, number_toDigits]

theorem length_pad {length n : Nat} (positive : 0 < length) (small : n < 10 ^ length) :
    (pad length n).length = length := by
  have short := (Nat.length_toDigits_le_iff (b := 10) (by decide) positive).mpr small
  rw [pad, List.length_leftpad]
  omega

theorem digits_pad (length n : Nat) : Digits (pad length n) := digits_leftpad digits_toDigits

theorem readYear_yearText (y : Int) : readYear (yearText y) = y := by
  unfold yearText
  split_ifs with short negative
  · have digits := digits_pad 4 y.toNat
    have written := number_pad 4 y.toNat
    generalize pad 4 y.toNat = text at digits written
    unfold readYear
    split
    · exact absurd (digits '-' List.mem_cons_self) (by decide)
    · exact absurd (digits '+' List.mem_cons_self) (by decide)
    · omega
  · simp only [readYear, number_pad]
    omega
  · simp only [readYear, number_pad]
    omega

/-- Two digits, or three. -/
theorem pad_two {n : Nat} (small : n < 100) : ∃ a b, pad 2 n = [a, b] :=
  List.length_eq_two.mp (length_pad (by decide) small)

theorem pad_three {n : Nat} (small : n < 1000) : ∃ a b c, pad 3 n = [a, b, c] :=
  List.length_eq_three.mp (length_pad (by decide) small)

theorem readFields_text {f : Fields} (month : f.month < 100) (day : f.day < 100) (hour : f.hour < 100)
    (minute : f.minute < 100) (second : f.second < 100) (millisecond : f.millisecond < 1000) :
    readFields f.text = f := by
  obtain ⟨m, m', hm⟩ := pad_two month
  obtain ⟨d, d', hd⟩ := pad_two day
  obtain ⟨h, h', hh⟩ := pad_two hour
  obtain ⟨n, n', hn⟩ := pad_two minute
  obtain ⟨s, s', hs⟩ := pad_two second
  obtain ⟨l, l', l'', hl⟩ := pad_three millisecond
  have text : f.text = yearText f.year ++ ['-', m, m', '-', d, d', 'T', h, h', ':', n, n', ':', s, s',
      '.', l, l', l'', 'Z'] := by
    simp [Fields.text, hm, hd, hh, hn, hs, hl]
  have cut : f.text.length - 20 = (yearText f.year).length := by
    rw [text, List.length_append]
    rfl
  have front : f.text.take (f.text.length - 20) = yearText f.year := by
    rw [cut, text, List.take_left]
  have tail : f.text.drop (f.text.length - 20) = ['-', m, m', '-', d, d', 'T', h, h', ':', n, n', ':',
      s, s', '.', l, l', l'', 'Z'] := by
    rw [cut, text, List.drop_left]
  simp only [readFields, front, tail, readYear_yearText]
  simp only [List.drop_succ_cons, List.drop_zero, List.take_succ_cons, List.take_zero, ← hm, ← hd, ← hh,
    ← hn, ← hs, ← hl, number_pad]

theorem readFields_fields (date : Date) : readFields date.fields.text = date.fields := by
  have month := month_spec (isLeap (yearFromDay (date.time / 86400000)))
    (date.time / 86400000 - dayFromYear (yearFromDay (date.time / 86400000))).toNat (inYear_lt _)
  have inDay := Int.emod_lt_of_pos date.time (by decide : (0 : Int) < 86400000)
  dsimp only at month
  apply readFields_text <;> simp only [fields] <;> omega

theorem ofISOString_toISOString (date : Date) : ofISOString date.toISOString = some date := by
  have time : (readFields date.toISOString.toList).time = date.time := by
    rw [toISOString, String.toList_ofList, readFields_fields, time_fields]
  obtain ⟨t, valid⟩ := date
  simp only [ofISOString, time, valid, dif_pos, if_pos]

/-- A text of digits and a few signs. -/
theorem forall_mem_toISOString {P : Char → Prop} (digit : ∀ c : Char, c.isDigit = true → P c)
    (signs : ∀ c ∈ ['-', '+', ':', '.', 'T', 'Z'], P c) (date : Date) :
    ∀ c ∈ date.toISOString.toList, P c := by
  have padded : ∀ length n, ∀ c ∈ pad length n, P c :=
    fun length n c member => digit c (digits_pad length n c member)
  have year : ∀ c ∈ yearText date.fields.year, P c := by
    unfold yearText
    split_ifs
    · exact padded _ _
    · exact List.forall_mem_cons.mpr ⟨signs _ (by decide), padded _ _⟩
    · exact List.forall_mem_cons.mpr ⟨signs _ (by decide), padded _ _⟩
  simp only [List.forall_mem_cons] at signs
  rw [toISOString, String.toList_ofList, Fields.text]
  simp only [List.forall_mem_append, List.forall_mem_cons, List.cons_append]
  tauto

end Finstack.Date
