import SupplyTrail.Ledger.Failure
import SupplyTrail.Proofs.Text.Numerals
import SupplyTrail.Proofs.Text.Occurrences
/-!
# Codes — the number that a text of a failure carries

`contractCode?` reads the numeral right after the first marker of a text, and there is no number exactly if there is no
marker, no digit right after it or a number beyond 32 bits (`codeReading`).  The marker ends in the only `#` that it has,
so a marker that is written behind a text without one is the first.  A program finds the marker among the bytes of the
text and cuts the text there; `codeInBytes?` reads that way, with an outcome of its own for a cut inside of a character,
which no text has.
-/
namespace SupplyTrail

variable {message : String} {n : Nat}

/-! ## The number behind the marker -/

/-- A list begins with a numeral that nothing lengthens, for a number of 32 bits. -/
theorem leadingCode?_eq_some_iff {cs : List Char} : leadingCode? cs = some n ↔
    ∃ digits rest, cs = digits ++ rest ∧ Text.Numeral digits n ∧ (∀ c ∈ rest.head?, Text.isDigit c = false) ∧
      n < 2 ^ 32 := by
  constructor
  · intro h
    rw [leadingCode?] at h
    split at h
    · cases h
    · next hne =>
      split at h
      · next hfits =>
        cases h
        exact ⟨_, _, (List.takeWhile_append_dropWhile (p := Text.isDigit)).symm, Text.numeral_takeWhile hne,
          Text.head?_dropWhile_isDigit cs, hfits⟩
      · cases h
  · rintro ⟨digits, rest, rfl, hnumeral, hrest, hfits⟩
    obtain ⟨hne, hdigit, rfl⟩ := Text.numeral_iff.1 hnumeral
    have hword : Text.ofDigits digits < UInt32.size := hfits
    rw [leadingCode?, Text.takeWhile_isDigit_append hdigit hrest, if_neg hne, if_pos hword]

/-- The number `n` in a text: the digits right after the first marker, as long as they go, are `n` in base ten, and `n`
fits in 32 bits. -/
structure Carries (message : String) (n : Nat) (before digits rest : List Char) : Prop where
  first : Text.FirstAt codeMarker message.toList before (digits ++ rest)
  numeral : Text.Numeral digits n
  maximal : ∀ c ∈ rest.head?, Text.isDigit c = false
  fits : n < 2 ^ 32

theorem contractCode?_eq_some_iff :
    contractCode? message = some n ↔ ∃ before digits rest, Carries message n before digits rest := by
  rw [contractCode?, Option.bind_eq_some_iff]
  constructor
  · rintro ⟨tail, htail, hcode⟩
    obtain ⟨before, hfirst⟩ := Text.afterFirst?_eq_some_iff.1 htail
    obtain ⟨digits, rest, rfl, hnumeral, hmaximal, hfits⟩ := leadingCode?_eq_some_iff.1 hcode
    exact ⟨before, digits, rest, hfirst, hnumeral, hmaximal, hfits⟩
  · rintro ⟨before, digits, rest, hfirst, hnumeral, hmaximal, hfits⟩
    exact ⟨_, Text.afterFirst?_eq_some_iff.2 ⟨before, hfirst⟩,
      leadingCode?_eq_some_iff.2 ⟨digits, rest, rfl, hnumeral, hmaximal, hfits⟩⟩

/-- The marker ends in a `#` and has no other. -/
theorem codeMarker_eq : codeMarker = "Error(Contract, ".toList ++ ['#'] := rfl

theorem contractCode?_eq_none (h : '#' ∉ message.toList) : contractCode? message = none := by
  rw [contractCode?, Text.afterFirst?_eq_none (by decide : '#' ∈ codeMarker) h, Option.bind_none]

theorem carries_written {before rest : List Char} (hbefore : ¬ codeMarker <:+: before)
    (hrest : ∀ c ∈ rest.head?, Text.isDigit c = false) (hfits : n < 2 ^ 32) :
    Carries (.ofList (before ++ (codeMarker ++ (Text.decimalChars n ++ rest)))) n before (Text.decimalChars n)
      rest := by
  refine ⟨?_, Text.numeral_decimalChars n, hrest, hfits⟩
  rw [String.toList_ofList, codeMarker_eq]
  exact .behind (by decide) hbefore

theorem append_eq_ofList (s t u v : String) :
    s ++ t ++ u ++ v = .ofList (s.toList ++ (t.toList ++ (u.toList ++ v.toList))) := by
  rw [← String.toList_append, ← String.toList_append, ← String.toList_append, String.ofList_toList, String.append_assoc,
    String.append_assoc]

/-! ## The reading of bytes -/

/-- The number as it is read off bytes: the marker is found among the bytes, the text is cut behind it, and the digits
are those that the cut text begins with.  Without an outcome, the cut fell inside of a character. -/
def codeInBytes? (bytes : List UInt8) : Option (Option Nat) :=
  match Text.afterFirst? (Text.bytesOf "Error(Contract, #") bytes with
  | none => some none
  | some tail => (Text.text? tail).map fun text => leadingCode? text.toList

theorem codeInBytes?_bytesOf (message : String) :
    codeInBytes? (Text.bytesOf message) = some (contractCode? message) := by
  rw [codeInBytes?, Text.afterFirst?_bytesOf (by decide), contractCode?]
  change _ = some ((Text.afterFirst? "Error(Contract, #".toList message.toList).bind leadingCode?)
  cases Text.afterFirst? "Error(Contract, #".toList message.toList with
  | none => rfl
  | some rest => simp [Text.text?_bytesOf]

/-- What is read off a text of a failure. -/
structure CodeReading (message : String) : Prop where
  code : ∀ n, contractCode? message = some n ↔ ∃ before digits rest, Carries message n before digits rest
  /-- A number that is written behind the marker is found, whatever surrounds it: no marker may come before it, and no
  digit may follow. -/
  written : ∀ (before : String) (n : Nat) (rest : String), ¬ codeMarker <:+: before.toList → n < 2 ^ 32 →
    (∀ c ∈ rest.toList.head?, Text.isDigit c = false) →
    message = before ++ "Error(Contract, #" ++ Text.decimal n ++ rest → contractCode? message = some n
  /-- Every cut falls between two characters: reading bytes has an outcome, and it is the same one. -/
  bytes : codeInBytes? (Text.bytesOf message) = some (contractCode? message)

/-- **The number of a text is the numeral right after its first marker, if it fits in 32 bits**, and no text makes the
reading fail. -/
theorem codeReading (message : String) : CodeReading message where
  code := fun _ => contractCode?_eq_some_iff
  written := by
    intro before n rest hbefore hfits hrest hmessage
    have hdecimal : (Text.decimal n).toList = Text.decimalChars n := String.toList_ofList
    rw [hmessage, append_eq_ofList before, hdecimal]
    exact contractCode?_eq_some_iff.2 ⟨_, _, _, carries_written hbefore hrest hfits⟩
  bytes := codeInBytes?_bytesOf message

example : contractCode? "é: Error(Contract, #007é), Error(Contract, #3)" = some 7 := by decide

end SupplyTrail
