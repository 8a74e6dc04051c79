import Finstack.Foundation.Legible
import Finstack.Model.Idempotency.Fingerprint
import Finstack.Soundness.Numbers
import Finstack.Soundness.Pagination.Cursor

/-! # Fingerprints are unambiguous

Canonical JSON can be read in one way only, but for the order of fields. So what is hashed of two
requests is the same only if the requests are.
-/

namespace Finstack.Idempotency

open Foundation

/-! ## Units -/

theorem val_unit {c : Char} (small : c.toNat < 2 ^ 16) : (unit c).val = c.toNat :=
  Nat.mod_eq_of_lt small

theorem unit_inj {c d : Char} (small : c.toNat < 2 ^ 16) (small' : d.toNat < 2 ^ 16)
    (same : unit c = unit d) : c = d := by
  have code := congrArg Fin.val same
  rw [val_unit small, val_unit small'] at code
  exact Char.toNat_inj.mp code

theorem ofNat_unit {c : Char} (small : c.toNat < 2 ^ 16) : Char.ofNat (unit c).val = c := by
  rw [val_unit small, Char.ofNat_toNat]

theorem ascii_inj {t u : String} (small : ∀ c ∈ t.toList, c.toNat < 2 ^ 16)
    (small' : ∀ c ∈ u.toList, c.toNat < 2 ^ 16) (same : ascii t = ascii u) : t = u := by
  have chars (text : String) (small : ∀ c ∈ text.toList, c.toNat < 2 ^ 16) :
      (ascii text).map (fun u => Char.ofNat u.val) = text.toList := by
    rw [ascii, List.map_map]
    exact (List.map_congr_left fun c member => ofNat_unit (small c member)).trans (List.map_id _)
  rw [← String.toList_inj, ← chars t small, ← chars u small', same]

/-! ## Strings -/

/-- The unit that a letter stands for after a backslash. -/
def unescape (letter : CodeUnit) : CodeUnit :=
  if letter = unit 'b' then 8
  else if letter = unit 't' then 9
  else if letter = unit 'n' then 10
  else if letter = unit 'f' then 12
  else if letter = unit 'r' then 13
  else letter

def hexUnit (digits : JsString) : CodeUnit := Fin.ofNat _ (hexNumber (digits.map fun u => Char.ofNat u.val))

/-- What is quoted before a quotation mark, and what follows it. -/
def unquote : JsString → Option (JsString × JsString)
  | [] => none
  | c :: rest =>
    if c = unit '"' then some ([], rest)
    else if c = unit '\\' then
      match rest with
      | [] => none
      | letter :: rest =>
        if letter = unit 'u' then
          match rest with
          | h :: i :: j :: k :: rest => (unquote rest).map fun (text, rest) => (hexUnit [h, i, j, k] :: text, rest)
          | _ => none
        else (unquote rest).map fun (text, rest) => (unescape letter :: text, rest)
    else (unquote rest).map fun (text, rest) => (c :: text, rest)

theorem shortEscape_some {u : CodeUnit} {letter : Char} (short : shortEscape u = some letter) :
    unescape (unit letter) = u ∧ unit letter ≠ unit 'u' ∧ unit letter ≠ unit '\n' := by
  unfold shortEscape at short
  split at short <;> cases short
  all_goals
    rename_i value
    exact ⟨Fin.ext (by rw [value]; decide), by decide, by decide⟩

section Reading

variable (rest : JsString)

theorem unquote_mark : unquote (unit '"' :: rest) = some ([], rest) := by
  rw [unquote.eq_def]
  simp only [if_true]

theorem unquote_plain {u : CodeUnit} (plain : shortEscape u = none) :
    unquote (u :: rest) = (unquote rest).map fun (text, rest) => (u :: text, rest) := by
  have mark : u ≠ unit '"' := by
    rintro rfl
    cases plain
  have backslash : u ≠ unit '\\' := by
    rintro rfl
    cases plain
  rw [unquote.eq_def]
  simp only [if_neg mark, if_neg backslash]

theorem unquote_escape {letter : CodeUnit} (short : letter ≠ unit 'u') :
    unquote (unit '\\' :: letter :: rest) =
      (unquote rest).map fun (text, rest) => (unescape letter :: text, rest) := by
  have mark : unit '\\' ≠ unit '"' := by decide
  rw [unquote.eq_def]
  simp only [if_neg mark, if_true, if_neg short]

theorem unquote_hex (h i j k : CodeUnit) : unquote (unit '\\' :: unit 'u' :: h :: i :: j :: k :: rest) =
    (unquote rest).map fun (text, rest) => (hexUnit [h, i, j, k] :: text, rest) := by
  have mark : unit '\\' ≠ unit '"' := by decide
  rw [unquote.eq_def]
  simp only [if_neg mark, if_true]

end Reading

theorem hexUnit_hexDigits (u : CodeUnit) : hexUnit ((hexDigits 4 u).map unit) = u := by
  have digits : ((hexDigits 4 u).map unit).map (fun v => Char.ofNat v.val) = hexDigits 4 u := by
    rw [List.map_map]
    refine (List.map_congr_left fun c member => ?_).trans (List.map_id _)
    exact ofNat_unit (forall_mem_hexDigits (P := fun c => c.toNat < 2 ^ 16) (by decide) 4 u c member)
  have value : u.val % 16 ^ 4 = u.val := Nat.mod_eq_of_lt u.isLt
  rw [hexUnit, digits, hexNumber_hexDigits, value]
  exact Fin.ofNat_val_eq_self u

/-- A quoted unit is read as the unit. -/
theorem unquote_quoteUnit (u : CodeUnit) (rest : JsString) :
    unquote (quoteUnit u ++ rest) = (unquote rest).map fun (text, rest) => (u :: text, rest) := by
  unfold quoteUnit
  split
  · next letter short =>
    obtain ⟨back, not_u, -⟩ := shortEscape_some short
    rw [List.cons_append, List.cons_append, List.nil_append, unquote_escape rest not_u, back]
  · next plain =>
    split_ifs
    · have hex := hexUnit_hexDigits u
      obtain ⟨h, i, j, k, four⟩ : ∃ h i j k, (hexDigits 4 u).map unit = [h, i, j, k] := by
        simp [hexDigits]
      rw [four] at hex ⊢
      rw [List.cons_append, List.cons_append]
      exact (unquote_hex rest h i j k).trans (by rw [hex])
    · exact unquote_plain rest plain

theorem shortEscape_surrogate {u : CodeUnit} (surrogate : (isHighSurrogate u || isLowSurrogate u) = true) :
    shortEscape u = none := by
  unfold shortEscape
  simp only [isHighSurrogate, isLowSurrogate, Bool.or_eq_true, Bool.and_eq_true, decide_eq_true_eq] at surrogate
  split <;> first | omega | rfl

theorem unquote_quoteUnits (text rest : JsString) :
    unquote (quoteUnits text ++ unit '"' :: rest) = some (text, rest) := by
  fun_induction quoteUnits text with
  | case1 u v others pair ih =>
    rw [Bool.and_eq_true] at pair
    rw [List.cons_append, List.cons_append, unquote_plain _ (shortEscape_surrogate (by simp [pair.1])),
      unquote_plain _ (shortEscape_surrogate (by simp [pair.2])), ih]
    rfl
  | case2 u v others pair ih =>
    rw [List.append_assoc, unquote_quoteUnit, ih]
    rfl
  | case3 u =>
    rw [unquote_quoteUnit, unquote_mark]
    rfl
  | case4 => exact unquote_mark rest

theorem quote_inj {text text' rest rest' : JsString} (same : quote text ++ rest = quote text' ++ rest') :
    text = text' ∧ rest = rest' := by
  simp only [quote, List.cons_append, List.append_assoc, List.nil_append, List.cons.injEq, true_and] at same
  have read := unquote_quoteUnits text rest
  rw [same, unquote_quoteUnits] at read
  cases read
  exact ⟨rfl, rfl⟩

/-! ## Values -/

/-- By what a value consists of. -/
theorem Value.induction {P : Value → Prop} (undefined : P .undefined) (null : P .null)
    (bool : ∀ b, P (.bool b)) (number : ∀ x, P (.number x)) (string : ∀ text, P (.string text))
    (array : ∀ items, (∀ item ∈ items, P item) → P (.array items))
    (object : ∀ fields, (∀ field ∈ fields, P field.2) → P (.object fields)) (value : Value) : P value :=
  @Value.rec P (fun items => ∀ item ∈ items, P item) (fun fields => ∀ field ∈ fields, P field.2)
    (fun field => P field.2) undefined null bool number string array object
    (fun _ member => absurd member List.not_mem_nil)
    (fun _ _ here others => List.forall_mem_cons.mpr ⟨here, others⟩)
    (fun _ member => absurd member List.not_mem_nil)
    (fun _ _ here others => List.forall_mem_cons.mpr ⟨here, others⟩)
    (fun _ _ here => here) value

theorem areJson_iff {items : List Value} : areJson items = true ↔ ∀ item ∈ items, item.isJson = true := by
  induction items with
  | nil => simp [areJson]
  | cons item items ih => simp [areJson, ih]

theorem haveJson_iff {fields : List (JsString × Value)} :
    haveJson fields = true ↔ ∀ field ∈ fields, field.2.isJson = true := by
  induction fields with
  | nil => simp [haveJson]
  | cons field fields ih =>
    obtain ⟨key, value⟩ := field
    rw [haveJson, Bool.and_eq_true, ih, List.forall_mem_cons]

theorem isJson_array {items : List Value} :
    (Value.array items).isJson = true ↔ ∀ item ∈ items, item.isJson = true := by
  rw [Value.isJson, areJson_iff]

theorem isJson_object {fields : List (JsString × Value)} : (Value.object fields).isJson = true ↔
    (fields.map Prod.fst).Nodup ∧ ∀ field ∈ fields, field.2.isJson = true := by
  rw [Value.isJson, Bool.and_eq_true, decide_eq_true_iff, haveJson_iff]

theorem canonicalItems_eq (items : List Value) : canonicalItems items = items.map canonicalJson := by
  induction items with
  | nil => rfl
  | cons item items ih => rw [canonicalItems, ih, List.map_cons]

/-- In JSON no field is left out. -/
theorem canonicalFields_eq {fields : List (JsString × Value)}
    (json : ∀ field ∈ fields, field.2.isJson = true) :
    canonicalFields fields = fields.map fun field => (field.1, canonicalJson field.2) := by
  induction fields with
  | nil => rfl
  | cons field fields ih =>
    obtain ⟨key, value⟩ := field
    obtain ⟨here, others⟩ := List.forall_mem_cons.mp json
    have defined : value ≠ .undefined := by
      rintro rfl
      cases here
    rw [canonicalFields, ih others, List.map_cons]
    exact defined

/-- A field's key and the text of its value. -/
def fieldText (field : JsString × Value) : JsString := quote field.1 ++ unit ':' :: canonicalJson field.2

theorem sortFields_perm {T : Type} (fields : List (JsString × T)) : (sortFields fields).Perm fields :=
  List.mergeSort_perm _ _

theorem sortFields_map {T U : Type} (f : T → U) (fields : List (JsString × T)) :
    sortFields (fields.map fun field => (field.1, f field.2)) =
      (sortFields fields).map fun field => (field.1, f field.2) := by
  unfold sortFields
  rw [List.map_mergeSort]
  exact fun a _ b _ => rfl

theorem canonicalJson_array (items : List Value) : canonicalJson (.array items) =
    unit '[' :: ([unit ','].intercalate (items.map canonicalJson) ++ [unit ']']) := by
  rw [canonicalJson, canonicalItems_eq]
  rfl

theorem canonicalJson_object {fields : List (JsString × Value)}
    (json : ∀ field ∈ fields, field.2.isJson = true) : canonicalJson (.object fields) =
      unit '{' :: ([unit ','].intercalate ((sortFields fields).map fieldText) ++ [unit '}']) := by
  rw [canonicalJson, canonicalFields_eq json, sortFields_map canonicalJson, List.map_map]
  rfl

/-! ## First units -/

def numeralAlphabet : List Char := "0123456789.e+-".toList

/-- Which kind of value begins with a unit. -/
def kindOf (c : CodeUnit) : Nat :=
  if c = unit 'n' then 0
  else if c = unit 't' then 1
  else if c = unit 'f' then 2
  else if c = unit '"' then 4
  else if c = unit '[' then 5
  else if c = unit '{' then 6
  else if c ∈ numeralAlphabet.map unit then 3
  else 7

def Value.kind : Value → Nat
  | .undefined | .null => 0
  | .bool true => 1
  | .bool false => 2
  | .number _ => 3
  | .string _ => 4
  | .array _ => 5
  | .object _ => 6

/-- What follows a value within another one. -/
abbrev EndsValue (c : CodeUnit) : Prop := c = unit ',' ∨ c = unit ']' ∨ c = unit '}'

theorem mem_numeralAlphabet {c : Char} (numeral : c.isDigit = true ∨ c ∈ ['.', 'e', '+', '-']) :
    c ∈ numeralAlphabet := by
  rcases numeral with digit | sign
  · obtain ⟨low, high⟩ := toNat_of_isDigit digit
    have each : ∀ d < 10, Char.ofNat (d + 48) ∈ numeralAlphabet := by decide
    have code : c.toNat - 48 + 48 = c.toNat := by omega
    rw [← Char.ofNat_toNat c, ← code]
    exact each (c.toNat - 48) (by omega)
  · have signs : ∀ d ∈ ['.', 'e', '+', '-'], d ∈ numeralAlphabet := forall_mem_of_all (by decide)
    exact signs c sign

theorem numeralAlphabet_spec : ∀ c ∈ numeralAlphabet,
    c.toNat < 2 ^ 16 ∧ kindOf (unit c) = 3 ∧ ¬ EndsValue (unit c) ∧ unit c ≠ unit '\n' :=
  forall_mem_of_all (by decide)

theorem numeralAlphabet_text (x : Double) : ∀ c ∈ x.text.toList, c ∈ numeralAlphabet := by
  obtain ⟨c, rest, text, -, all⟩ := x.text_form
  rw [text]
  exact fun d member => mem_numeralAlphabet (all d member)

theorem kindOf_signs : kindOf (unit '"') = 4 ∧ kindOf (unit '[') = 5 ∧ kindOf (unit '{') = 6 ∧
    kindOf (unit ']') = 7 ∧ kindOf (unit '}') = 7 := by
  decide

theorem canonicalJson_starts (value : Value) :
    ∃ c text, canonicalJson value = c :: text ∧ kindOf c = value.kind := by
  cases value with
  | undefined => exact ⟨_, _, rfl, by decide⟩
  | null => exact ⟨_, _, rfl, by decide⟩
  | bool b => cases b <;> exact ⟨_, _, rfl, by decide⟩
  | number x =>
    obtain ⟨c, rest, text, -, -⟩ := x.text_form
    have member : c ∈ numeralAlphabet := numeralAlphabet_text x c (text ▸ List.mem_cons_self)
    exact ⟨unit c, rest.map unit, by rw [canonicalJson, ascii, text, List.map_cons],
      (numeralAlphabet_spec c member).2.1⟩
  | string text => exact ⟨_, _, rfl, kindOf_signs.1⟩
  | array items => exact ⟨_, _, rfl, kindOf_signs.2.1⟩
  | object fields => exact ⟨_, _, rfl, kindOf_signs.2.2.1⟩

theorem kind_eq {value other : Value} {rest rest' : JsString}
    (same : canonicalJson value ++ rest = canonicalJson other ++ rest') : value.kind = other.kind := by
  obtain ⟨c, text, begins, kind⟩ := canonicalJson_starts value
  obtain ⟨d, text', begins', kind'⟩ := canonicalJson_starts other
  rw [begins, begins'] at same
  rw [← kind, ← kind', (List.cons.inj same).1]

theorem kind_lt (value : Value) : value.kind < 7 := by
  unfold Value.kind
  split <;> decide

/-- No value begins with a closing sign. -/
theorem starts_apart {close : CodeUnit} (closing : kindOf close = 7) (value : Value) :
    ∃ c text, canonicalJson value = c :: text ∧ c ≠ close := by
  obtain ⟨c, text, begins, kind⟩ := canonicalJson_starts value
  refine ⟨c, text, begins, ?_⟩
  rintro rfl
  have bounded := kind_lt value
  omega

/-! ## Unique readability -/

theorem legible_number (x : Double) {y : Double} {rest rest' : JsString} (stops : Stops EndsValue rest)
    (stops' : Stops EndsValue rest') (same : ascii x.text ++ rest = ascii y.text ++ rest') :
    x = y ∧ rest = rest' := by
  have plain (z : Double) : ∀ c ∈ ascii z.text, ¬ EndsValue c := by
    rw [ascii, List.forall_mem_map]
    exact fun c member => (numeralAlphabet_spec c (numeralAlphabet_text z c member)).2.2.1
  have small (z : Double) : ∀ c ∈ z.text.toList, c.toNat < 2 ^ 16 :=
    fun c member => (numeralAlphabet_spec c (numeralAlphabet_text z c member)).1
  obtain ⟨texts, after⟩ := append_inj_of_stops (plain x) (plain y) stops stops' same
  exact ⟨Double.text_injective (ascii_inj (small x) (small y) texts), after⟩

/-- A field is legible if its value is. -/
theorem legible_field {field : JsString × Value}
    (value : Legible EndsValue canonicalJson (·.isJson = true) SameUpToKeyOrder field.2) :
    Legible EndsValue fieldText (·.2.isJson = true)
      (fun f g => f.1 = g.1 ∧ SameUpToKeyOrder f.2 g.2) field := by
  intro other rest rest' json stops stops' same
  simp only [fieldText, List.append_assoc, List.cons_append] at same
  obtain ⟨keys, values⟩ := quote_inj same
  obtain ⟨related, after⟩ := value other.2 rest rest' json stops stops' (List.cons.inj values).2
  exact ⟨⟨keys, related⟩, after⟩

/-- Fields in the same order. -/
theorem keys_and_values {fields fields' : List (JsString × Value)}
    (same : List.Forall₂ (fun f g => f.1 = g.1 ∧ SameUpToKeyOrder f.2 g.2) fields fields') :
    fields.map Prod.fst = fields'.map Prod.fst ∧
      List.Forall₂ SameUpToKeyOrder (fields.map Prod.snd) (fields'.map Prod.snd) := by
  induction same with
  | nil => exact ⟨rfl, .nil⟩
  | cons here _ ih =>
    refine ⟨?_, .cons here.2 ih.2⟩
    rw [List.map_cons, List.map_cons, here.1, ih.1]

/-- Where others may follow, a text is the text of one value only. -/
theorem legible_value (value : Value) : value.isJson = true →
    Legible EndsValue canonicalJson (·.isJson = true) SameUpToKeyOrder value := by
  induction value using Value.induction with
  | undefined => exact fun json => absurd json (by decide)
  | null =>
    intro _ other rest rest' json _ _ same
    have kind := kind_eq same
    cases other with
    | undefined => cases json
    | null => exact ⟨.null, List.append_cancel_left same⟩
    | bool b => cases b <;> cases kind
    | _ => cases kind
  | bool b =>
    intro _ other rest rest' _ _ _ same
    have kind := kind_eq same
    cases other with
    | bool b' =>
      obtain rfl : b = b' := by
        cases b <;> cases b' <;> first | rfl | cases kind
      exact ⟨.bool b, List.append_cancel_left same⟩
    | _ => cases b <;> cases kind
  | number x =>
    intro _ other rest rest' _ stops stops' same
    have kind := kind_eq same
    cases other with
    | number y =>
      obtain ⟨rfl, after⟩ := legible_number x stops stops' same
      exact ⟨.number x, after⟩
    | bool b => cases b <;> cases kind
    | _ => cases kind
  | string text =>
    intro _ other rest rest' _ _ _ same
    have kind := kind_eq same
    cases other with
    | string text' =>
      obtain ⟨rfl, after⟩ := quote_inj same
      exact ⟨.string text, after⟩
    | bool b => cases b <;> cases kind
    | _ => cases kind
  | array items ih =>
    intro json other rest rest' json' _ _ same
    have kind := kind_eq same
    cases other with
    | array items' =>
      rw [isJson_array] at json json'
      rw [canonicalJson_array, canonicalJson_array, List.cons_append, List.cons_append, List.append_assoc,
        List.append_assoc] at same
      obtain ⟨related, after⟩ := legible_intercalate (fun item member => ih item member (json item member))
        (.inl rfl) (.inr (.inl rfl)) (by decide) json json'
        (fun item _ => starts_apart kindOf_signs.2.2.2.1 item) (List.cons.inj same).2
      exact ⟨.array related, after⟩
    | bool b => cases b <;> cases kind
    | _ => cases kind
  | object fields ih =>
    intro json other rest rest' json' _ _ same
    have kind := kind_eq same
    cases other with
    | object fields' =>
      have values := (isJson_object.mp json).2
      have values' := (isJson_object.mp json').2
      rw [canonicalJson_object values, canonicalJson_object values', List.cons_append, List.cons_append,
        List.append_assoc, List.append_assoc] at same
      have order := sortFields_perm fields
      have order' := sortFields_perm fields'
      obtain ⟨related, after⟩ := legible_intercalate
        (fun field member => legible_field (ih field (order.mem_iff.mp member) (values field (order.mem_iff.mp member))))
        (.inl rfl) (.inr (.inr rfl)) (by decide) (fun field member => values field (order.mem_iff.mp member))
        (fun field member => values' field (order'.mem_iff.mp member))
        (fun field _ => ⟨unit '"', _, rfl, by decide⟩) (List.cons.inj same).2
      obtain ⟨keys, related⟩ := keys_and_values related
      exact ⟨.object order.symm order'.symm keys related, after⟩
    | bool b => cases b <;> cases kind
    | _ => cases kind

/-! ## The order of fields -/

theorem sortFields_sorted {T : Type} (fields : List (JsString × T)) :
    (sortFields fields).Pairwise fun f g => f.1 ≤ g.1 := by
  have transitive (f g h : JsString × T) : decide (f.1 ≤ g.1) → decide (g.1 ≤ h.1) → decide (f.1 ≤ h.1) := by
    simpa using fun first second => le_trans first second
  have total (f g : JsString × T) : decide (f.1 ≤ g.1) || decide (g.1 ≤ f.1) := by
    simpa using le_total f.1 g.1
  have sorted := List.pairwise_mergeSort transitive total fields
  unfold sortFields
  simpa only [decide_eq_true_eq] using sorted

/-- With keys of their own, fields have one order. -/
theorem sortFields_eq {T : Type} {fields fields' : List (JsString × T)} (perm : fields.Perm fields')
    (distinct : (fields.map Prod.fst).Nodup) : sortFields fields = sortFields fields' := by
  have order := sortFields_perm fields
  have order' := sortFields_perm fields'
  refine ((order.trans perm).trans order'.symm).eq_of_pairwise (fun f g member member' le ge => ?_)
    (sortFields_sorted fields) (sortFields_sorted fields')
  exact List.inj_on_of_nodup_map distinct (order.mem_iff.mp member)
    (perm.mem_iff.mpr (order'.mem_iff.mp member')) (le_antisymm le ge)

theorem map_texts_eq (fields : List (JsString × Value)) :
    fields.map (fun field => (field.1, canonicalJson field.2)) =
      (fields.map Prod.fst).zip ((fields.map Prod.snd).map canonicalJson) := by
  induction fields with
  | nil => rfl
  | cons field fields ih => rw [List.map_cons, ih]; rfl

theorem map_canonicalJson_eq {items items' : List Value}
    (each : ∀ item ∈ items, ∀ other, other.isJson = true → SameUpToKeyOrder item other →
      canonicalJson item = canonicalJson other)
    (json : ∀ item ∈ items', item.isJson = true) (same : List.Forall₂ SameUpToKeyOrder items items') :
    items.map canonicalJson = items'.map canonicalJson := by
  induction same with
  | nil => rfl
  | cons here _ ih =>
    obtain ⟨first, each⟩ := List.forall_mem_cons.mp each
    obtain ⟨first_json, json⟩ := List.forall_mem_cons.mp json
    rw [List.map_cons, List.map_cons, first _ first_json here, ih each json]

/-- The order of fields does not matter. -/
theorem canonicalJson_congr (value : Value) : value.isJson = true → ∀ other, other.isJson = true →
    SameUpToKeyOrder value other → canonicalJson value = canonicalJson other := by
  induction value using Value.induction with
  | array items ih =>
    intro json other json' same
    cases same with
    | array same =>
      rw [isJson_array] at json json'
      rw [canonicalJson_array, canonicalJson_array,
        map_canonicalJson_eq (fun item member => ih item member (json item member)) json' same]
  | object fields ih =>
    intro json other json' same
    cases same with
    | @object _ fields' ordered ordered' order order' keys same =>
      obtain ⟨distinct, values⟩ := isJson_object.mp json
      obtain ⟨_, values'⟩ := isJson_object.mp json'
      have each : ∀ item ∈ ordered.map Prod.snd, ∀ other, other.isJson = true →
          SameUpToKeyOrder item other → canonicalJson item = canonicalJson other := by
        rw [List.forall_mem_map]
        exact fun field member => ih field (order.mem_iff.mpr member) (values field (order.mem_iff.mpr member))
      have json' : ∀ item ∈ ordered'.map Prod.snd, item.isJson = true := by
        rw [List.forall_mem_map]
        exact fun field member => values' field (order'.mem_iff.mpr member)
      have texts : ordered.map (fun field => (field.1, canonicalJson field.2)) =
          ordered'.map fun field => (field.1, canonicalJson field.2) := by
        rw [map_texts_eq, map_texts_eq, keys, map_canonicalJson_eq each json' same]
      have perm : (canonicalFields fields).Perm (canonicalFields fields') := by
        rw [canonicalFields_eq values, canonicalFields_eq values']
        exact (order.map _).trans (texts ▸ (order'.map _).symm)
      have own_keys : ((canonicalFields fields).map Prod.fst).Nodup := by
        rw [canonicalFields_eq values, List.map_map]
        exact distinct
      rw [canonicalJson, canonicalJson, sortFields_eq perm own_keys]
  | undefined =>
    intro _ other _ same
    cases same
  | _ =>
    intro _ other _ same
    cases same
    rfl

/-! ## Lines -/

theorem ne_line_of_plain {u : CodeUnit} (plain : shortEscape u = none) : u ≠ unit '\n' := by
  rintro rfl
  cases plain

theorem quoteUnit_line (u : CodeUnit) : ∀ c ∈ quoteUnit u, c ≠ unit '\n' := by
  unfold quoteUnit
  split
  · next letter short =>
    simp only [List.forall_mem_cons, List.not_mem_nil, false_implies, implies_true, and_true]
    exact ⟨by decide, (shortEscape_some short).2.2⟩
  · next plain =>
    split_ifs
    · simp only [List.forall_mem_cons, List.forall_mem_map]
      refine ⟨by decide, by decide, fun c member => ?_⟩
      have digit := forall_mem_hexDigits (P := fun c => c.toNat < 2 ^ 16 ∧ c ≠ '\n') (by decide) 4 u c member
      exact fun line => digit.2 (unit_inj digit.1 (by decide) line)
    · simpa using ne_line_of_plain plain

theorem quoteUnits_line (text : JsString) : ∀ c ∈ quoteUnits text, c ≠ unit '\n' := by
  fun_induction quoteUnits text with
  | case1 u v others pair ih =>
    rw [Bool.and_eq_true] at pair
    exact List.forall_mem_cons.mpr ⟨ne_line_of_plain (shortEscape_surrogate (by simp [pair.1])),
      List.forall_mem_cons.mpr ⟨ne_line_of_plain (shortEscape_surrogate (by simp [pair.2])), ih⟩⟩
  | case2 u v others pair ih => exact List.forall_mem_append.mpr ⟨quoteUnit_line u, ih⟩
  | case3 u => exact quoteUnit_line u
  | case4 => exact fun c member => absurd member List.not_mem_nil

theorem quote_line (text : JsString) : ∀ c ∈ quote text, c ≠ unit '\n' := by
  simp only [quote, List.forall_mem_append, List.forall_mem_cons, List.cons_append, List.not_mem_nil,
    false_implies, implies_true, and_true]
  exact ⟨by decide, quoteUnits_line text, by decide⟩

/-- Canonical JSON is one line. -/
theorem canonicalJson_line (value : Value) : value.isJson = true → ∀ c ∈ canonicalJson value, c ≠ unit '\n' := by
  induction value using Value.induction with
  | undefined => exact fun json => absurd json (by decide)
  | null =>
    intro _
    rw [canonicalJson, ascii, List.forall_mem_map]
    exact forall_mem_of_all (by decide)
  | bool b =>
    intro _
    rw [canonicalJson, ascii, List.forall_mem_map]
    cases b <;> exact forall_mem_of_all (by decide)
  | number x =>
    intro _
    rw [canonicalJson, ascii, List.forall_mem_map]
    exact fun c member => (numeralAlphabet_spec c (numeralAlphabet_text x c member)).2.2.2
  | string text => exact fun _ => quote_line text
  | array items ih =>
    intro json
    rw [isJson_array] at json
    rw [canonicalJson_array]
    have inside : ∀ c ∈ [unit ','].intercalate (items.map canonicalJson), c ≠ unit '\n' := by
      refine forall_mem_intercalate (by decide) ?_
      rw [List.forall_mem_map]
      exact fun item member => ih item member (json item member)
    exact List.forall_mem_cons.mpr ⟨by decide, List.forall_mem_append.mpr
      ⟨inside, List.forall_mem_singleton.mpr (by decide)⟩⟩
  | object fields ih =>
    intro json
    have values := (isJson_object.mp json).2
    rw [canonicalJson_object values]
    have inside : ∀ c ∈ [unit ','].intercalate ((sortFields fields).map fieldText), c ≠ unit '\n' := by
      refine forall_mem_intercalate (by decide) ?_
      rw [List.forall_mem_map]
      intro field member
      have here := (sortFields_perm fields).mem_iff.mp member
      exact List.forall_mem_append.mpr ⟨quote_line field.1,
        List.forall_mem_cons.mpr ⟨by decide, ih field here (values field here)⟩⟩
    exact List.forall_mem_cons.mpr ⟨by decide, List.forall_mem_append.mpr
      ⟨inside, List.forall_mem_singleton.mpr (by decide)⟩⟩

/-! ## Requests -/

theorem isJson_orNull (body : Option Json) : (orNull (bodyOf body)).isJson = true := by
  cases body with
  | none => rfl
  | some json =>
    obtain ⟨value, json⟩ := json
    cases value with
    | undefined => rfl
    | _ => exact json

theorem binary_five : ∃ m e : ℤ, |m| < 2 ^ 53 ∧ -1074 ≤ e ∧ e ≤ 971 ∧ (5 : ℚ) = m * 2 ^ e :=
  ⟨5, 0, by norm_num⟩

end Finstack.Idempotency
