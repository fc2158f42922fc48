import Mathlib.Algebra.Group.Nat.Defs
import SupplyTrail.Text.Abbreviation
/-!
# Abbreviation — what is left of a key that is shown by its ends

A key that is cut in three, two ends of one length and something between them, is shown by its ends around an ellipsis;
a key that has nothing between its ends is shown whole (`abbreviate_eq_iff`).  So what is shown of a key is no longer
than the key, and it is a key whose ends are the same and have an ellipsis between them: to abbreviate it again changes
nothing.
-/
namespace SupplyTrail.Text

variable {key head middle tail shown : String} {ends : Nat}

/-- A key in three parts: its first characters, as many of its last ones, and what is between them. -/
structure CutInto (key : String) (ends : Nat) (head middle tail : String) : Prop where
  joined : key = head ++ middle ++ tail
  head : head.length = ends
  tail : tail.length = ends

/-- What is shown of a key: all of it if no ends are asked for or nothing is between them, and else its ends around an
ellipsis. -/
inductive ShownAs (key : String) (ends : Nat) : String → Prop
  | whole (h : ends = 0 ∨ key.length ≤ 2 * ends) : ShownAs key ends key
  | ends {head middle tail : String} (hends : ends ≠ 0) (h : CutInto key ends head middle tail) (hmiddle : middle ≠ "") :
      ShownAs key ends (head ++ "…" ++ tail)

theorem CutInto.length (h : CutInto key ends head middle tail) : key.length = 2 * ends + middle.length := by
  rw [h.joined, String.length_append, String.length_append, h.head, h.tail]
  omega

/-- A key that is long enough has two ends. -/
theorem exists_cutInto (h : 2 * ends ≤ key.length) : ∃ head middle tail, CutInto key ends head middle tail := by
  have hlength : 2 * ends ≤ key.toList.length := by rwa [String.length_toList]
  refine ⟨.ofList (key.toList.take ends), .ofList ((key.toList.drop ends).take (key.toList.length - 2 * ends)),
    .ofList (key.toList.drop (key.toList.length - ends)), ?_, ?_, ?_⟩
  · have hrest : key.toList.drop (key.toList.length - ends) =
        (key.toList.drop ends).drop (key.toList.length - 2 * ends) := by
      rw [List.drop_drop]
      congr 1
      omega
    rw [← String.toList_inj, String.toList_append, String.toList_append, String.toList_ofList, String.toList_ofList,
      String.toList_ofList, hrest, List.append_assoc, List.take_append_drop, List.take_append_drop]
  · rw [String.length_ofList, List.length_take]
    omega
  · rw [String.length_ofList, List.length_drop]
    omega

theorem exists_cutInto_of_long (h : ¬ (ends = 0 ∨ key.length ≤ 2 * ends)) :
    ends ≠ 0 ∧ ∃ head middle tail, CutInto key ends head middle tail ∧ middle ≠ "" := by
  obtain ⟨hends, hlong⟩ := not_or.1 h
  obtain ⟨head, middle, tail, hcut⟩ := exists_cutInto (Nat.le_of_lt (Nat.lt_of_not_le hlong))
  refine ⟨hends, head, middle, tail, hcut, ?_⟩
  rintro rfl
  exact hlong (Nat.le_of_eq hcut.length)

theorem abbreviate_of_short (h : ends = 0 ∨ key.length ≤ 2 * ends) : abbreviate key ends = key := by
  rw [abbreviate, if_pos (by rwa [String.length_toList])]

theorem abbreviate_of_cutInto (hends : ends ≠ 0) (h : CutInto key ends head middle tail) (hmiddle : middle ≠ "") :
    abbreviate key ends = head ++ "…" ++ tail := by
  have hbetween : middle.length ≠ 0 := mt String.length_eq_zero_iff.1 hmiddle
  have hlong : ¬ (ends = 0 ∨ key.toList.length ≤ 2 * ends) := by
    rw [String.length_toList, h.length]
    omega
  have htake : key.toList.take ends = head.toList := by
    rw [h.joined, String.toList_append, String.toList_append, List.append_assoc]
    exact List.take_left' (by rw [String.length_toList, h.head])
  have hdrop : key.toList.drop (key.toList.length - ends) = tail.toList := by
    have hfront : key.toList.length - ends = (head ++ middle).toList.length := by
      rw [String.length_toList, String.length_toList, h.length, String.length_append, h.head]
      omega
    rw [hfront, h.joined, String.toList_append (s := head ++ middle), List.drop_left]
  rw [abbreviate, if_neg hlong, htake, hdrop, ← String.toList_inj, String.toList_ofList, String.toList_append,
    String.toList_append, List.append_assoc]
  rfl

theorem shownAs_abbreviate (key : String) (ends : Nat) : ShownAs key ends (abbreviate key ends) := by
  by_cases hshort : ends = 0 ∨ key.length ≤ 2 * ends
  · rw [abbreviate_of_short hshort]
    exact .whole hshort
  · obtain ⟨hends, head, middle, tail, hcut, hmiddle⟩ := exists_cutInto_of_long hshort
    rw [abbreviate_of_cutInto hends hcut hmiddle]
    exact .ends hends hcut hmiddle

/-- **A key is shown whole or by its ends around an ellipsis.** -/
theorem abbreviate_eq_iff : abbreviate key ends = shown ↔ ShownAs key ends shown := by
  constructor
  · rintro rfl
    exact shownAs_abbreviate key ends
  · rintro (hshort | ⟨hends, hcut, hmiddle⟩)
    · exact abbreviate_of_short hshort
    · exact abbreviate_of_cutInto hends hcut hmiddle

theorem CutInto.ellipsis (h : CutInto key ends head middle tail) :
    CutInto (head ++ "…" ++ tail) ends head "…" tail := ⟨rfl, h.head, h.tail⟩

/-- The middle of a key is an ellipsis exactly if its one character there is. -/
theorem exists_cutInto_ellipsis_iff : (∃ head tail, CutInto key ends head "…" tail) ↔
    key.length = 2 * ends + 1 ∧ key.toList[ends]? = some '…' := by
  constructor
  · rintro ⟨head, tail, hcut⟩
    refine ⟨hcut.length, ?_⟩
    have hat : head.toList.length = ends := by rw [String.length_toList, hcut.head]
    rw [hcut.joined, String.toList_append, String.toList_append, List.append_assoc,
      List.getElem?_append_right (Nat.le_of_eq hat), hat, Nat.sub_self]
    rfl
  · rintro ⟨hlength, hat⟩
    obtain ⟨head, middle, tail, hcut⟩ := exists_cutInto (show 2 * ends ≤ key.length by omega)
    have hone : middle.toList.length = 1 := by
      have := hcut.length
      rw [String.length_toList]
      omega
    obtain ⟨c, hc⟩ := List.length_eq_one_iff.1 hone
    have hhead : head.toList.length = ends := by rw [String.length_toList, hcut.head]
    rw [hcut.joined, String.toList_append, String.toList_append, List.append_assoc,
      List.getElem?_append_right (Nat.le_of_eq hhead), hhead, Nat.sub_self, hc] at hat
    cases hat
    have hmiddle : middle = "…" := String.toList_inj.1 hc
    exact ⟨head, tail, hmiddle ▸ hcut⟩

/-- A key is left as it is exactly if it is shown whole or an ellipsis is all that it has between its ends. -/
theorem abbreviate_eq_self_iff : abbreviate key ends = key ↔
    ends = 0 ∨ key.length ≤ 2 * ends ∨ key.length = 2 * ends + 1 ∧ key.toList[ends]? = some '…' := by
  rw [← exists_cutInto_ellipsis_iff, ← or_assoc]
  constructor
  · intro hself
    by_cases hshort : ends = 0 ∨ key.length ≤ 2 * ends
    · exact .inl hshort
    · obtain ⟨hends, head, middle, tail, hcut, hmiddle⟩ := exists_cutInto_of_long hshort
      have hshown := abbreviate_of_cutInto hends hcut hmiddle
      exact .inr ⟨head, tail, hself.symm.trans hshown, hcut.head, hcut.tail⟩
  · rintro (hshort | ⟨head, tail, hcut⟩)
    · exact abbreviate_of_short hshort
    · by_cases hends : ends = 0
      · exact abbreviate_of_short (.inl hends)
      · rw [abbreviate_of_cutInto hends hcut (by decide), ← hcut.joined]

theorem ShownAs.again (h : ShownAs key ends shown) : abbreviate shown ends = shown := by
  cases h with
  | whole hshort => exact abbreviate_of_short hshort
  | ends hends hcut _ => exact abbreviate_of_cutInto hends hcut.ellipsis (by decide)

theorem ShownAs.length_le (h : ShownAs key ends shown) : shown.length ≤ key.length := by
  cases h with
  | whole => exact Nat.le_refl _
  | ends hends hcut hmiddle =>
    have hbetween := mt String.length_eq_zero_iff.1 hmiddle
    have hone : "…".length = 1 := rfl
    rw [hcut.ellipsis.length, hcut.length, hone]
    omega

/-! ## Counting in words -/

/-- Abbreviation with counts that are words of 64 bits, so that a sum or a difference may wrap around. -/
def abbreviateInWords (key : String) (ends : UInt64) : String :=
  let count := UInt64.ofNat key.length
  if ends = 0 ∨ count ≤ ends * 2 then key
  else String.ofList (key.toList.take ends.toNat ++ '…' :: key.toList.drop (count - ends).toNat)

/-- **Words count right** up to the half of their range. -/
theorem abbreviateInWords_eq {ends : UInt64} (hends : ends.toNat < 2 ^ 63) (hkey : key.length < 2 ^ 64) :
    abbreviateInWords key ends = abbreviate key ends.toNat := by
  have hcount : (UInt64.ofNat key.length).toNat = key.length := UInt64.toNat_ofNat_of_lt' hkey
  have hdouble : (ends * 2).toNat = 2 * ends.toNat := by
    rw [UInt64.toNat_mul, Nat.mod_eq_of_lt]
    · exact Nat.mul_comm _ _
    · change ends.toNat * 2 < 2 ^ 64
      omega
  have hshort : (ends = 0 ∨ UInt64.ofNat key.length ≤ ends * 2) ↔
      ends.toNat = 0 ∨ key.toList.length ≤ 2 * ends.toNat := by
    rw [UInt64.le_iff_toNat_le, hcount, hdouble, String.length_toList, ← UInt64.toNat_inj]
    rfl
  rw [abbreviateInWords, abbreviate]
  by_cases h : ends.toNat = 0 ∨ key.toList.length ≤ 2 * ends.toNat
  · rw [if_pos h, if_pos (hshort.2 h)]
  · have hle : ends ≤ UInt64.ofNat key.length := by
      rw [String.length_toList] at h
      rw [UInt64.le_iff_toNat_le, hcount]
      omega
    rw [if_neg h, if_neg (mt hshort.1 h), UInt64.toNat_sub_of_le _ _ hle, hcount, String.length_toList]

/-- What is shown of a key, for any number of characters at its ends. -/
structure Abbreviated (key : String) (ends : Nat) : Prop where
  shown : ∀ shown, abbreviate key ends = shown ↔ ShownAs key ends shown
  again : abbreviate (abbreviate key ends) ends = abbreviate key ends
  length_le : (abbreviate key ends).length ≤ key.length
  whole : abbreviate key ends = key ↔
    ends = 0 ∨ key.length ≤ 2 * ends ∨ key.length = 2 * ends + 1 ∧ key.toList[ends]? = some '…'
  /-- The ends that are shown do not overlap in the key: something else is between them. -/
  around : abbreviate key ends ≠ key → ∃ head middle tail, CutInto key ends head middle tail ∧ middle ≠ "" ∧
    abbreviate key ends = head ++ "…" ++ tail
  words : ∀ n : UInt64, n.toNat = ends → ends < 2 ^ 63 → key.length < 2 ^ 64 →
    abbreviateInWords key n = abbreviate key ends

/-- **A key is shown whole or by its two ends**, and what is shown of it is shown whole. -/
theorem abbreviated (key : String) (ends : Nat) : Abbreviated key ends where
  shown := fun _ => abbreviate_eq_iff
  again := (shownAs_abbreviate key ends).again
  length_le := (shownAs_abbreviate key ends).length_le
  whole := abbreviate_eq_self_iff
  around := by
    intro hnot
    obtain ⟨hends, head, middle, tail, hcut, hmiddle⟩ := exists_cutInto_of_long (mt abbreviate_of_short hnot)
    exact ⟨head, middle, tail, hcut, hmiddle, abbreviate_of_cutInto hends hcut hmiddle⟩
  words := by
    rintro n rfl hends hkey
    exact abbreviateInWords_eq hends hkey

example : abbreviate "Gé…Z" 1 = "G…Z" ∧ abbreviate "G…Z" 1 = "G…Z" ∧ abbreviate "GéZ" 2 = "GéZ" := by decide

end SupplyTrail.Text
