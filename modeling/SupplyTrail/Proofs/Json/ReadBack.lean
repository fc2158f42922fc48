import SupplyTrail.Proofs.Json.Numerals
/-!
# ReadBack — what is written for a value is read as its image

The compact text of a value is read to its end, and what is read is the value itself except where it holds doubles: the
text of a double is read as some double, or as one that is out of range.  So a text determines its value but for its
doubles, and a value without doubles altogether.  That is so in room enough; what nests deeper than the reader goes is
read to its end too, but no value is left of it (`readValue_charsIn`, `toJson?_imageIn`).
-/
namespace SupplyTrail.Json

open Text (Glyph)
open Decimal (Double)

namespace Reader

/-! ## Strings -/

/-- What one character of a string is read as. -/
def pieceOf (c : Char) : Piece :=
  if c = '"' ∨ c = '\\' ∨ c = '\x08' ∨ c = '\x0c' ∨ c = '\n' ∨ c = '\r' ∨ c = '\t' then .char c
  else if c.toNat < 0x20 then .escape c.toNat
  else .char c

theorem readString_short {e c : Char} (h : shortEscape? e = some c) (hu : e ≠ 'u') (r : List Glyph) :
    readString (some '\\' :: some e :: r) = (readString r).map (piece (.char c)) := by
  rw [readString]
  · rw [h]
  · intros
    simp_all

theorem readString_plain {c : Char} (hquote : c ≠ '"') (hslash : c ≠ '\\') (hctl : ¬ c.toNat < 0x20) (r : List Glyph) :
    readString (some c :: r) = (readString r).map (piece (.char c)) := by
  rw [readString]
  · rw [if_neg hctl]
  · exact fun h => hquote h
  · intros
    simp_all
  · intros
    simp_all
  · exact fun h => hslash h

theorem hex4?_hexPadded : ∀ n < 0x20, ∃ a b c d, Text.hexPadded 4 n = [a, b, c, d] ∧
    hex4? (some a) (some b) (some c) (some d) = some n := by
  intro n hn
  refine ⟨_, _, _, _, rfl, ?_⟩
  revert n
  decide

/-- **A written character is read as one piece.** -/
theorem readString_escapeChar (c : Char) (r : List Glyph) :
    readString ((escapeChar c).map some ++ r) = (readString r).map (piece (pieceOf c)) := by
  unfold escapeChar pieceOf
  by_cases h₁ : c = '"'
  · subst h₁; exact readString_short rfl (by decide) r
  by_cases h₂ : c = '\\'
  · subst h₂; exact readString_short rfl (by decide) r
  by_cases h₃ : c = '\x08'
  · subst h₃; exact readString_short rfl (by decide) r
  by_cases h₄ : c = '\x0c'
  · subst h₄; exact readString_short rfl (by decide) r
  by_cases h₅ : c = '\n'
  · subst h₅; exact readString_short rfl (by decide) r
  by_cases h₆ : c = '\r'
  · subst h₆; exact readString_short rfl (by decide) r
  by_cases h₇ : c = '\t'
  · subst h₇; exact readString_short rfl (by decide) r
  simp only [h₁, h₂, h₃, h₄, h₅, h₆, h₇, if_false, or_self]
  by_cases hctl : c.toNat < 0x20
  · obtain ⟨a, b, x, y, hhex, hval⟩ := hex4?_hexPadded c.toNat hctl
    simp only [hctl, if_true, hhex, List.map_cons, List.map_nil, List.cons_append, List.nil_append]
    rw [readString, hval]
  · simp only [hctl, if_false, List.map_cons, List.map_nil, List.cons_append, List.nil_append]
    exact readString_plain h₁ h₂ hctl r

theorem readString_chars (cs : List Char) (r : List Glyph) :
    readString ((cs.flatMap escapeChar).map some ++ some '"' :: r) = some (cs.map pieceOf, r) := by
  induction cs with
  | nil => simp [readString]
  | cons c cs ih =>
    rw [List.flatMap_cons, List.map_append, List.append_assoc, readString_escapeChar, ih]
    rfl

/-- A numeric escape that is no surrogate is a character by itself. -/
theorem joinPieces_escape {n : Nat} (h : n < 0x20) (ps : List Piece) :
    joinPieces (.escape n :: ps) = (joinPieces ps).map (Char.ofNat n :: ·) := by
  have hhigh : isHighSurrogate n = false := by
    simp only [isHighSurrogate, Bool.and_eq_false_iff, decide_eq_false_iff_not]
    omega
  have hlow : isLowSurrogate n = false := by
    simp only [isLowSurrogate, Bool.and_eq_false_iff, decide_eq_false_iff_not]
    omega
  cases ps with
  | nil => simp [joinPieces, hhigh, hlow]
  | cons p ps =>
    cases p with
    | lost => simp [joinPieces, hhigh, hlow]
    | char c => simp [joinPieces, hhigh, hlow]
    | escape m => simp [joinPieces, hhigh, hlow]

theorem pieceOf_cases (c : Char) : pieceOf c = .char c ∨ (c.toNat < 0x20 ∧ pieceOf c = .escape c.toNat) := by
  unfold pieceOf
  split
  · exact .inl rfl
  · split
    · rename_i hctl
      exact .inr ⟨hctl, rfl⟩
    · exact .inl rfl

theorem joinPieces_pieceOf (cs : List Char) : joinPieces (cs.map pieceOf) = some cs := by
  induction cs with
  | nil => rfl
  | cons c cs ih =>
    rw [List.map_cons]
    rcases pieceOf_cases c with hc | ⟨hctl, hc⟩
    · rw [hc, joinPieces, ih]; rfl
    · rw [hc, joinPieces_escape hctl, ih, Char.ofNat_toNat]; rfl

/-- **A written string is read as itself.** -/
theorem readString_stringChars (s : String) (r : List Glyph) :
    ∃ pieces, readString ((s.toList.flatMap escapeChar ++ ['"']).map some ++ r) = some (pieces, r) ∧
      textOf? pieces = some s := by
  refine ⟨s.toList.map pieceOf, ?_, ?_⟩
  · rw [List.map_append, List.append_assoc]
    exact readString_chars s.toList r
  · rw [textOf?, joinPieces_pieceOf, Option.map_some, String.ofList_toList]

/-! ## Numbers -/

theorem isDigit_ne {c d : Char} (h : Text.isDigit c = true) (hd : Text.isDigit d = false) : c ≠ d :=
  fun he => by rw [he, hd] at h; cases h

theorem skipBlanks_cons {c : Char} (h : isBlank (some c) = false) (r : List Glyph) :
    skipBlanks (some c :: r) = some c :: r := by
  simp only [skipBlanks, List.dropWhile_cons, h, Bool.false_eq_true, if_false]

theorem isBlank_digit {c : Char} (h : Text.isDigit c = true) : isBlank (some c) = false := by
  have h₁ := isDigit_ne h (d := ' ') (by decide)
  have h₂ := isDigit_ne h (d := '\n') (by decide)
  have h₃ := isDigit_ne h (d := '\r') (by decide)
  have h₄ := isDigit_ne h (d := '\t') (by decide)
  simp [isBlank, h₁, h₂, h₃, h₄]

theorem readValue_digit {c : Char} (h : Text.isDigit c = true) (calls room : Nat) (r : List Glyph) :
    readValue (calls + 1) room (some c :: r) = readNumber false (some c :: r) := by
  rw [readValue, skipBlanks_cons (isBlank_digit h)]
  split
  · rename_i heq; cases heq; cases h
  · rename_i heq; cases heq; cases h
  · rename_i heq; cases heq; cases h
  · rename_i heq; cases heq; cases h
  · rename_i heq; cases heq; cases h
  · rename_i heq; cases heq; cases h
  · rename_i heq; cases heq; cases h
  · rfl

/-- **A numeral with its sign is read to its end.** -/
theorem readValue_numeral {n : Numeral} (h : n.Grammatical) (calls room : Nat) {r : List Glyph} (hr : Stops r) :
    readValue (calls + 1) room ((if n.negative then '-' :: n.chars else n.chars).map some ++ r) =
      some (n.source, r) := by
  have hread := readNumber_chars h hr
  by_cases hneg : n.negative = true
  · rw [if_pos hneg, List.map_cons, List.cons_append, readValue, skipBlanks_cons (by decide)]
    rwa [hneg] at hread
  · rw [if_neg hneg]
    rw [Bool.not_eq_true] at hneg
    rw [hneg] at hread
    obtain ⟨c, cs, hcs⟩ := List.exists_cons_of_ne_nil h.integer.1
    have hchars : n.chars = c :: (cs ++ (Numeral.fractionChars n.fraction ++ Numeral.exponentChars n.exponent)) := by
      rw [Numeral.chars, hcs, List.cons_append]
    rw [hchars, List.map_cons, List.cons_append] at hread ⊢
    rw [readValue_digit (h.integer.2 c (by rw [hcs]; exact List.mem_cons_self)), hread]

end Reader

/-! ## Values -/

/-- What the text of a double is read as. -/
def realImage (d : Double) : Source :=
  ((Reader.readValue 1 0 ((Decimal.shortText d).map some)).map Prod.fst).getD .unreadable

def numberImage : Number → Source
  | .whole w => .number (.whole w)
  | .real d => realImage d

mutual

/-- What the text of a value is read as: the value, but for its doubles. -/
def image : Json → Source
  | .null => .null
  | .bool b => .bool b
  | .number n => numberImage n
  | .string s => .string s
  | .array items => .array (itemsImage items)
  | .object members => .object (membersImage members)

def itemsImage : List Json → List Source
  | [] => []
  | x :: xs => x.image :: itemsImage xs

def membersImage : List (String × Json) → List (Option String × Source)
  | [] => []
  | (k, x) :: xs => (some k, x.image) :: membersImage xs

end

mutual

/-- What the text of a value is read as where only `room` arrays and objects may nest: those beyond are unreadable. -/
def imageIn : Nat → Json → Source
  | _, .null => .null
  | _, .bool b => .bool b
  | _, .number n => numberImage n
  | _, .string s => .string s
  | room, .array items => Reader.within room (.array (itemsImageIn (room - 1) items))
  | room, .object members => Reader.within room (.object (membersImageIn (room - 1) members))

def itemsImageIn : Nat → List Json → List Source
  | _, [] => []
  | room, x :: xs => imageIn room x :: itemsImageIn room xs

def membersImageIn : Nat → List (String × Json) → List (Option String × Source)
  | _, [] => []
  | room, (k, x) :: xs => (some k, imageIn room x) :: membersImageIn room xs

end

theorem Reader.within_of_pos {room : Nat} (h : 0 < room) (s : Source) : within room s = s :=
  if_neg (Nat.ne_of_gt h)

mutual

theorem imageIn_eq_image {room : Nat} : ∀ j : Json, j.depth ≤ room → imageIn room j = j.image
  | .null, _ => by rw [imageIn, image]
  | .bool b, _ => by rw [imageIn, image]
  | .number n, _ => by rw [imageIn, image]
  | .string s, _ => by rw [imageIn, image]
  | .array items, h => by
    rw [depth] at h
    rw [imageIn, image, itemsImageIn_eq_itemsImage items (by omega), Reader.within_of_pos (by omega)]
  | .object members, h => by
    rw [depth] at h
    rw [imageIn, image, membersImageIn_eq_membersImage members (by omega), Reader.within_of_pos (by omega)]

theorem itemsImageIn_eq_itemsImage {room : Nat} :
    ∀ xs : List Json, depthItems xs ≤ room → itemsImageIn room xs = itemsImage xs
  | [], _ => rfl
  | x :: xs, h => by
    rw [depthItems, Nat.max_le] at h
    rw [itemsImageIn, itemsImage, imageIn_eq_image x h.1, itemsImageIn_eq_itemsImage xs h.2]

theorem membersImageIn_eq_membersImage {room : Nat} :
    ∀ xs : List (String × Json), depthMembers xs ≤ room → membersImageIn room xs = membersImage xs
  | [], _ => rfl
  | (k, x) :: xs, h => by
    rw [depthMembers, Nat.max_le] at h
    rw [membersImageIn, membersImage, imageIn_eq_image x h.1, membersImageIn_eq_membersImage xs h.2]

end

mutual

/-- **What nests deeper than there is room has no value.** -/
theorem toJson?_imageIn {room : Nat} : ∀ j : Json, room < j.depth → (imageIn room j).toJson? = none
  | .null, h => by rw [depth] at h; omega
  | .bool b, h => by rw [depth] at h; omega
  | .number n, h => by rw [depth] at h; omega
  | .string s, h => by rw [depth] at h; omega
  | .array items, h => by
    rw [depth] at h
    rw [imageIn]
    by_cases hroom : room = 0
    · rw [hroom]; rfl
    · rw [Reader.within_of_pos (by omega), Source.toJson?, itemsToJson?_itemsImageIn items (by omega), Option.map_none]
  | .object members, h => by
    rw [depth] at h
    rw [imageIn]
    by_cases hroom : room = 0
    · rw [hroom]; rfl
    · rw [Reader.within_of_pos (by omega), Source.toJson?, membersToJson?_membersImageIn members (by omega),
        Option.map_none]

theorem itemsToJson?_itemsImageIn {room : Nat} :
    ∀ xs : List Json, room < depthItems xs → Source.itemsToJson? (itemsImageIn room xs) = none
  | [], h => by rw [depthItems] at h; omega
  | x :: xs, h => by
    rw [depthItems] at h
    rw [itemsImageIn, Source.itemsToJson?]
    by_cases hx : room < x.depth
    · rw [toJson?_imageIn x hx]; rfl
    · rw [itemsToJson?_itemsImageIn xs (by omega)]
      cases (imageIn room x).toJson? <;> rfl

theorem membersToJson?_membersImageIn {room : Nat} :
    ∀ xs : List (String × Json), room < depthMembers xs → Source.membersToJson? (membersImageIn room xs) = none
  | [], h => by rw [depthMembers] at h; omega
  | (k, x) :: xs, h => by
    rw [depthMembers] at h
    rw [membersImageIn, Source.membersToJson?]
    by_cases hx : room < x.depth
    · rw [toJson?_imageIn x hx]; rfl
    · rw [membersToJson?_membersImageIn xs (by omega)]
      cases (imageIn room x).toJson? <;> rfl

end

namespace Reader

theorem readValue_real (d : Double) (calls room : Nat) {r : List Glyph} (hr : Stops r) :
    readValue (calls + 1) room ((Decimal.shortText d).map some ++ r) = some (realImage d, r) := by
  obtain ⟨n, hgram, -, htext⟩ := Numeral.shortText_eq d
  have himage : realImage d = n.source := by
    have hread := readValue_numeral hgram 0 0 .nothing
    rw [List.append_nil] at hread
    rw [realImage, htext, hread]
    rfl
  rw [himage, htext]
  exact readValue_numeral hgram calls room hr

theorem readValue_number (n : Number) (calls room : Nat) {r : List Glyph} (hr : Stops r) :
    readValue (calls + 1) room ((numberChars n).map some ++ r) = some (numberImage n, r) := by
  cases n with
  | real d => exact readValue_real d calls room hr
  | whole w =>
    rw [numberChars, Numeral.wholeChars_eq, readValue_numeral (Numeral.ofWhole_grammatical w) calls room hr,
      Numeral.source_ofWhole]
    rfl

/-- A written value starts with something that is neither a blank nor a closing bracket. -/
theorem chars_head (j : Json) : ∃ c cs, j.chars = c :: cs ∧ isBlank (some c) = false ∧ c ≠ ']' := by
  cases j with
  | null => exact ⟨_, _, rfl, by decide, by decide⟩
  | bool b => cases b <;> exact ⟨_, _, rfl, by decide, by decide⟩
  | string s => exact ⟨_, _, by rw [chars, stringChars], by decide, by decide⟩
  | array items => cases items <;> exact ⟨_, _, by rw [chars], by decide, by decide⟩
  | object members =>
    cases members with
    | nil => exact ⟨_, _, by rw [chars], by decide, by decide⟩
    | cons m ms => exact ⟨_, _, by rw [chars], by decide, by decide⟩
  | number n =>
    obtain ⟨x, hgram, htext⟩ : ∃ x : Numeral, x.Grammatical ∧
        numberChars n = if x.negative then '-' :: x.chars else x.chars := by
      cases n with
      | whole w => exact ⟨_, Numeral.ofWhole_grammatical w, Numeral.wholeChars_eq w⟩
      | real d =>
        obtain ⟨x, hgram, -, htext⟩ := Numeral.shortText_eq d
        exact ⟨x, hgram, htext⟩
    rw [chars, htext]
    split
    · exact ⟨_, _, rfl, by decide, by decide⟩
    · obtain ⟨c, cs, hcs⟩ := List.exists_cons_of_ne_nil hgram.integer.1
      have hdigit := hgram.integer.2 c (by rw [hcs]; exact List.mem_cons_self)
      exact ⟨c, _, by rw [Numeral.chars, hcs, List.cons_append], isBlank_digit hdigit, isDigit_ne hdigit (by decide)⟩

theorem stops_items (xs : List Json) (r : List Glyph) : Stops ((itemsChars xs).map some ++ r) := by
  cases xs with
  | nil => exact .bracket _
  | cons x xs => rw [itemsChars]; exact .comma _

theorem stops_members (xs : List (String × Json)) (r : List Glyph) : Stops ((membersChars xs).map some ++ r) := by
  cases xs with
  | nil => exact .brace _
  | cons x xs => rw [membersChars]; exact .comma _

theorem readMember_chars (k : String) {calls room : Nat} {input r : List Glyph} {x : Source}
    (hx : readValue calls room input = some (x, r)) :
    readMember (calls + 1) room ((stringChars k).map some ++ some ':' :: input) = some ((some k, x), r) := by
  obtain ⟨pieces, hread, htext⟩ := readString_stringChars k (some ':' :: input)
  rw [readMember, stringChars, List.map_cons, List.cons_append, skipBlanks_cons (by decide)]
  simp only [hread, skipBlanks_cons (show isBlank (some ':') = false by decide), hx, htext, Option.bind_eq_bind,
    Option.bind_some]
  rfl

mutual

/-- **The text of a value is read as its image in the room there is**, given calls enough. -/
theorem readValue_charsIn (j : Json) (calls room : Nat) {r : List Glyph} (hcalls : j.chars.length ≤ calls)
    (hr : Stops r) : readValue calls room (j.chars.map some ++ r) = some (imageIn room j, r) := by
  obtain ⟨calls, rfl⟩ : ∃ k, calls = k + 1 := by
    obtain ⟨c, cs, hcs, -⟩ := chars_head j
    rw [hcs, List.length_cons] at hcalls
    exact ⟨calls - 1, by omega⟩
  match j with
  | .null => rw [readValue, chars]; rfl
  | .bool true => rw [readValue, chars]; rfl
  | .bool false => rw [readValue, chars]; rfl
  | .number n => rw [chars, imageIn]; exact readValue_number n calls room hr
  | .string s =>
    obtain ⟨pieces, hread, htext⟩ := readString_stringChars s r
    rw [readValue, chars, stringChars, List.map_cons, List.cons_append, skipBlanks_cons (by decide)]
    simp only [hread, Option.map_some, htext, Option.elim_some, imageIn]
  | .array [] =>
    rw [readValue, chars]
    simp only [List.map_cons, List.map_nil, List.cons_append, List.nil_append]
    rw [skipBlanks_cons (by decide)]
    simp only
    rw [skipBlanks_cons (by decide)]
    simp only [imageIn, itemsImageIn]
  | .array (x :: xs) =>
    rw [chars, List.length_cons, List.length_append] at hcalls
    have hx := readValue_charsIn x calls (room - 1) (r := (itemsChars xs).map some ++ r) (by omega) (stops_items xs r)
    have hxs := readItems_charsIn xs calls (room - 1) (r := r) (by omega)
    obtain ⟨c, cs, hcs, hblank, hbracket⟩ := chars_head x
    rw [chars, List.map_cons, List.cons_append, readValue, skipBlanks_cons (by decide)]
    simp only [List.map_append, List.append_assoc]
    split
    · rename_i heq
      rw [hcs, List.map_cons, List.cons_append, skipBlanks_cons hblank] at heq
      injection heq with heq
      exact absurd (Option.some.inj heq) hbracket
    · simp only [hx, hxs, Option.bind_eq_bind, Option.bind_some, imageIn, itemsImageIn]
      rfl
  | .object [] =>
    rw [readValue, chars]
    simp only [List.map_cons, List.map_nil, List.cons_append, List.nil_append]
    rw [skipBlanks_cons (by decide)]
    simp only
    rw [skipBlanks_cons (by decide)]
    simp only [imageIn, membersImageIn]
  | .object ((k, x) :: xs) =>
    rw [chars, List.length_cons, List.length_append, List.length_cons, List.length_append] at hcalls
    obtain ⟨calls, rfl⟩ : ∃ n, calls = n + 1 := ⟨calls - 1, by rw [stringChars, List.length_cons] at hcalls; omega⟩
    have hx := readValue_charsIn x calls (room - 1) (r := (membersChars xs).map some ++ r) (by omega)
      (stops_members xs r)
    have hxs := readMembers_charsIn xs (calls + 1) (room - 1) (r := r) (by omega)
    have hmember := readMember_chars k hx
    rw [chars, List.map_cons, List.cons_append, readValue, skipBlanks_cons (by decide)]
    simp only [List.map_append, List.map_cons, List.append_assoc, List.cons_append]
    split
    · rename_i heq
      rw [stringChars, List.map_cons, List.cons_append, skipBlanks_cons (by decide)] at heq
      injection heq with heq
      exact absurd (Option.some.inj heq) (by decide)
    · simp only [hmember, hxs, Option.bind_eq_bind, Option.bind_some, imageIn, membersImageIn]
      rfl
termination_by structural j

theorem readItems_charsIn (xs : List Json) (calls room : Nat) {r : List Glyph}
    (hcalls : (itemsChars xs).length ≤ calls) :
    readItems calls room ((itemsChars xs).map some ++ r) = some (itemsImageIn room xs, r) := by
  obtain ⟨calls, rfl⟩ : ∃ k, calls = k + 1 := by
    cases xs with
    | nil => exact ⟨calls - 1, by rw [itemsChars, List.length_singleton] at hcalls; omega⟩
    | cons x xs => exact ⟨calls - 1, by rw [itemsChars, List.length_cons] at hcalls; omega⟩
  match xs with
  | [] => rw [readItems, itemsChars]; rfl
  | x :: xs =>
    rw [itemsChars, List.length_cons, List.length_append] at hcalls
    have hx := readValue_charsIn x calls room (r := (itemsChars xs).map some ++ r) (by omega) (stops_items xs r)
    have hxs := readItems_charsIn xs calls room (r := r) (by omega)
    rw [readItems, itemsChars, List.map_cons, List.cons_append, skipBlanks_cons (by decide)]
    simp only [List.map_append, List.append_assoc, hx, Option.bind_eq_bind, Option.bind_some, hxs, itemsImageIn]
    rfl
termination_by structural xs

theorem readMembers_charsIn (xs : List (String × Json)) (calls room : Nat) {r : List Glyph}
    (hcalls : (membersChars xs).length ≤ calls) :
    readMembers calls room ((membersChars xs).map some ++ r) = some (membersImageIn room xs, r) := by
  obtain ⟨calls, rfl⟩ : ∃ k, calls = k + 1 := by
    cases xs with
    | nil => exact ⟨calls - 1, by rw [membersChars, List.length_singleton] at hcalls; omega⟩
    | cons x xs => exact ⟨calls - 1, by rw [membersChars, List.length_cons] at hcalls; omega⟩
  match xs with
  | [] => rw [readMembers, membersChars]; rfl
  | (k, x) :: xs =>
    rw [membersChars, List.length_cons, List.length_append, List.length_cons, List.length_append] at hcalls
    obtain ⟨calls, rfl⟩ : ∃ n, calls = n + 1 := ⟨calls - 1, by rw [stringChars, List.length_cons] at hcalls; omega⟩
    have hx := readValue_charsIn x calls room (r := (membersChars xs).map some ++ r) (by omega) (stops_members xs r)
    have hxs := readMembers_charsIn xs (calls + 1) room (r := r) (by omega)
    have hmember := readMember_chars k hx
    rw [readMembers, membersChars, List.map_cons, List.cons_append, skipBlanks_cons (by decide)]
    simp only [List.map_append, List.map_cons, List.append_assoc, List.cons_append, hmember, Option.bind_eq_bind,
      Option.bind_some, hxs, membersImageIn]
    rfl
termination_by structural xs

end

/-- **The text of a value is read as its image**, given room and calls enough. -/
theorem readValue_chars (j : Json) (calls room : Nat) {r : List Glyph} (hcalls : j.chars.length ≤ calls)
    (hroom : j.depth ≤ room) (hr : Stops r) : readValue calls room (j.chars.map some ++ r) = some (j.image, r) := by
  rw [readValue_charsIn j calls room hcalls hr, imageIn_eq_image j hroom]

end Reader

end SupplyTrail.Json
