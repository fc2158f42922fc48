/-!
# Blank text

White space is Unicode's `White_Space` property.  `trim` drops it at both ends and `isBlank` says that nothing is left;
both look at whole scalar values, so a zero-width space or a byte order mark is text like any other.
-/
namespace SupplyTrail.Text

/-- A character of Unicode's `White_Space`. -/
def isSpace (c : Char) : Bool :=
  let n := c.toNat
  (0x09 ≤ n && n ≤ 0x0D) || n == 0x20 || n == 0x85 || n == 0xA0 || n == 0x1680 || (0x2000 ≤ n && n ≤ 0x200A) ||
    n == 0x2028 || n == 0x2029 || n == 0x202F || n == 0x205F || n == 0x3000

/-- The characters left when white space is dropped at the end. -/
def trimEnd : List Char → List Char
  | [] => []
  | c :: cs =>
    match trimEnd cs with
    | [] => if isSpace c then [] else [c]
    | kept => c :: kept

/-- The text without the white space at its two ends. -/
def trim (s : String) : String :=
  String.ofList (trimEnd (s.toList.dropWhile isSpace))

/-- The text is empty or white space only. -/
def isBlank (s : String) : Bool :=
  s.toList.all isSpace

theorem trimEnd_eq_nil_iff (cs : List Char) : trimEnd cs = [] ↔ cs.all isSpace = true := by
  induction cs with
  | nil => simp [trimEnd]
  | cons c cs ih =>
    simp only [trimEnd, List.all_cons, Bool.and_eq_true, ← ih]
    cases h : trimEnd cs with
    | nil => by_cases hc : isSpace c = true <;> simp [hc]
    | cons d ds => simp

theorem dropWhile_all_iff (cs : List Char) : (cs.dropWhile isSpace).all isSpace = cs.all isSpace := by
  induction cs with
  | nil => rfl
  | cons c cs ih =>
    by_cases hc : isSpace c = true
    · simp [List.dropWhile, hc, ih]
    · simp [List.dropWhile, hc]

/-- A text is blank exactly when trimming leaves nothing. -/
theorem isBlank_iff_trim_eq_empty (s : String) : isBlank s = true ↔ trim s = "" := by
  rw [isBlank, trim, ← dropWhile_all_iff, ← trimEnd_eq_nil_iff, ← String.ofList_nil, String.ofList_inj]

theorem trimEnd_cons_of_not_isSpace {c : Char} (hc : isSpace c = false) (cs : List Char) :
    trimEnd (c :: cs) = c :: trimEnd cs := by
  rw [trimEnd]
  split <;> simp_all

theorem trimEnd_trimEnd (cs : List Char) : trimEnd (trimEnd cs) = trimEnd cs := by
  induction cs with
  | nil => rfl
  | cons c cs ih =>
    rw [trimEnd]
    cases h : trimEnd cs with
    | nil => by_cases hc : isSpace c = true <;> simp [trimEnd, hc]
    | cons d ds =>
      rw [h] at ih
      change trimEnd (c :: d :: ds) = c :: d :: ds
      rw [trimEnd, ih]

/-- What is trimmed has no white space at its ends. -/
theorem trim_trim (s : String) : trim (trim s) = trim s := by
  unfold trim
  rw [String.toList_ofList]
  have hhead := List.head?_dropWhile_not isSpace s.toList
  cases h : s.toList.dropWhile isSpace with
  | nil => rfl
  | cons c cs =>
    have hc : isSpace c = false := by simpa [h] using hhead
    rw [trimEnd_cons_of_not_isSpace hc, List.dropWhile_cons_of_neg (by simp [hc]), trimEnd_cons_of_not_isSpace hc,
      trimEnd_trimEnd]

end SupplyTrail.Text
