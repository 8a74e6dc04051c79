import Finstack.Model.OutboundWebhooks.Signature

/-! # A header verifies

Whoever has one of the secrets that a header is signed with verifies it.
-/

namespace Finstack.OutboundWebhooks

open Foundation

variable {hmac : Hmac} {numerals : Numerals} {secrets : List Text} {secret body : Text}
  {timestamp toleranceSeconds now : Nat}

/-! ## Texts -/

theorem Numerals.toText_natCast (safe : timestamp < 2 ^ 53) :
    numerals.toText timestamp = Nat.toDigits 10 timestamp := by
  have range : (0 : Int) ≤ timestamp ∧ (timestamp : Int) < 2 ^ 53 := by omega
  rw [Numerals.toText, if_pos range, Int.toNat_natCast]

/-- `Number(String(timestamp))` -/
theorem Numerals.toNumber_toDigits (safe : timestamp < 2 ^ 53) :
    numerals.toNumber (Nat.toDigits 10 timestamp) = some (timestamp : Int) := by
  have plain : Nat.toDigits 10 timestamp ≠ [] ∧ Digits (Nat.toDigits 10 timestamp) ∧
      Foundation.number (Nat.toDigits 10 timestamp) < 2 ^ 53 := by
    rw [number_toDigits]
    exact ⟨Nat.toDigits_ne_nil, digits_toDigits, safe⟩
  rw [Numerals.toNumber, if_pos plain, number_toDigits]

theorem isHexDigit_of_mem_sign {c : Char} {timestamp : Int}
    (member : c ∈ sign hmac numerals secret timestamp body) : isHexDigit c = true := by
  have hex := hmac.hex secret (numerals.toText timestamp ++ '.' :: body)
  rw [isHexDigest, Bool.and_eq_true, List.all_eq_true] at hex
  exact hex.2 c member

/-- `split('=', 2)` of a key and a value. -/
theorem split_pair {key value : Text} (plain_key : '=' ∉ key) (plain_value : '=' ∉ value) :
    ((key ++ '=' :: value).splitOn '=').take 2 = [key, value] := by
  rw [List.splitOn_append_cons_self_of_not_mem plain_key, List.splitOn_eq_singleton plain_value]
  rfl

/-! ## The header -/

/-- The parts of a header come back. -/
theorem headerParts_signatureHeader (safe : timestamp < 2 ^ 53) :
    headerParts (signatureHeader hmac numerals secrets body timestamp) =
      ["t".toList, Nat.toDigits 10 timestamp] ::
        secrets.map fun secret => ["v1".toList, sign hmac numerals secret timestamp body] := by
  have digit : ∀ c ∈ Nat.toDigits 10 timestamp, c.isDigit = true := digits_toDigits
  have apart : ∀ part ∈ ("t=".toList ++ Nat.toDigits 10 timestamp) :: secrets.map
      (fun secret => "v1=".toList ++ sign hmac numerals secret timestamp body), ',' ∉ part := by
    intro part member comma
    rcases List.mem_cons.mp member with rfl | signature
    · rcases List.mem_append.mp comma with key | value
      · exact absurd key (by decide)
      · exact absurd (digit _ value) (by decide)
    · obtain ⟨secret, -, rfl⟩ := List.mem_map.mp signature
      rcases List.mem_append.mp comma with key | value
      · exact absurd key (by decide)
      · exact absurd (isHexDigit_of_mem_sign value) (by decide)
  rw [headerParts, signatureHeader, Numerals.toText_natCast safe,
    List.splitOn_intercalate ',' apart (List.cons_ne_nil _ _), List.map_cons, List.map_map]
  congr 1
  · refine @split_pair "t".toList _ (by decide) fun equals => ?_
    exact absurd (digit _ equals) (by decide)
  · refine List.map_congr_left fun secret _ => ?_
    refine @split_pair "v1".toList _ (by decide) fun equals => ?_
    exact absurd (isHexDigit_of_mem_sign equals) (by decide)

/-- A receiver whose clock is within its tolerance verifies a header with any of the secrets it is
signed with. -/
theorem verify_signatureHeader (safe : timestamp < 2 ^ 53) (member : secret ∈ secrets)
    (recent : ((now : Int) - timestamp * 1000).natAbs ≤ toleranceSeconds * 1000) :
    verifySignatureHeader hmac numerals (signatureHeader hmac numerals secrets body timestamp)
      secret body toleranceSeconds now = true := by
  have digest : isHexDigest (sign hmac numerals secret timestamp body) = true := hmac.hex _ _
  have own : ["v1".toList, sign hmac numerals secret timestamp body] ∈
      headerParts (signatureHeader hmac numerals secrets body timestamp) := by
    rw [headerParts_signatureHeader safe]
    exact List.mem_cons_of_mem _ (List.mem_map_of_mem member)
  have stamp : ((headerParts (signatureHeader hmac numerals secrets body timestamp)).find? fun
      part => part[0]? = some "t".toList).bind (·[1]?) = some (Nat.toDigits 10 timestamp) := by
    rw [headerParts_signatureHeader safe]
    rfl
  simp only [verifySignatureHeader, stamp, Numerals.toNumber_toDigits safe]
  rw [if_neg (Nat.not_lt.mpr recent), List.any_eq_true]
  refine ⟨_, List.mem_filter.mpr ⟨own, ?_⟩, ?_⟩
  · simp [digest]
  · simp

end Finstack.OutboundWebhooks
