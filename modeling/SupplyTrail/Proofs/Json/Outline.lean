import SupplyTrail.Proofs.Json.ReadBack
/-!
# Outline — what a text says about its value

A text determines its value but for the doubles in it: values of one text have one outline.  A value without doubles
whose objects are in key order is read back from its text as it was, as long as it does not nest too deep.
-/
namespace SupplyTrail.Json

open Text (Glyph)

/-! ## Values but for their doubles -/

mutual

/-- The value with every double put at zero. -/
def outline : Json → Json
  | .null => .null
  | .bool b => .bool b
  | .number (.whole w) => .number (.whole w)
  | .number (.real _) => .number (.real ⟨0⟩)
  | .string s => .string s
  | .array items => .array (itemsOutline items)
  | .object members => .object (membersOutline members)

def itemsOutline : List Json → List Json
  | [] => []
  | x :: xs => x.outline :: itemsOutline xs

def membersOutline : List (String × Json) → List (String × Json)
  | [] => []
  | (k, x) :: xs => (k, x.outline) :: membersOutline xs

end

mutual

/-- The outline of a value that was read: what is unreadable was a double. -/
def Source.outline : Source → Json
  | .null => .null
  | .bool b => .bool b
  | .number (.whole w) => .number (.whole w)
  | .number (.real _) | .unreadable => .number (.real ⟨0⟩)
  | .string s => .string s
  | .array items => .array (Source.itemsOutline items)
  | .object members => .object (Source.membersOutline members)

def Source.itemsOutline : List Source → List Json
  | [] => []
  | x :: xs => x.outline :: Source.itemsOutline xs

def Source.membersOutline : List (Option String × Source) → List (String × Json)
  | [] => []
  | (k, x) :: xs => (k.getD "", x.outline) :: Source.membersOutline xs

end

/-- The text of a double is never read as a whole number. -/
theorem outline_realImage (d : Decimal.Double) : (realImage d).outline = .number (.real ⟨0⟩) := by
  obtain ⟨n, hgram, hreal, htext⟩ := Numeral.shortText_eq d
  have hread := Reader.readValue_numeral hgram 0 0 .nothing
  rw [List.append_nil] at hread
  have himage : realImage d = n.source := by
    rw [realImage, htext, hread]
    rfl
  rcases Numeral.source_real hreal with hsource | ⟨d', hsource⟩
  · rw [himage, hsource, Source.outline]
  · rw [himage, hsource, Source.outline]

mutual

/-- **Reading the text of a value keeps its outline.** -/
theorem outline_image : ∀ j : Json, j.image.outline = j.outline
  | .null => by rw [image, Source.outline, outline]
  | .bool b => by rw [image, Source.outline, outline]
  | .number (.whole w) => by rw [image, numberImage, Source.outline, outline]
  | .number (.real d) => by rw [image, numberImage, outline_realImage, outline]
  | .string s => by rw [image, Source.outline, outline]
  | .array items => by rw [image, Source.outline, outline, outline_itemsImage]
  | .object members => by rw [image, Source.outline, outline, outline_membersImage]

theorem outline_itemsImage : ∀ xs : List Json, Source.itemsOutline (itemsImage xs) = itemsOutline xs
  | [] => rfl
  | x :: xs => by rw [itemsImage, Source.itemsOutline, itemsOutline, outline_image x, outline_itemsImage xs]

theorem outline_membersImage : ∀ xs : List (String × Json), Source.membersOutline (membersImage xs) = membersOutline xs
  | [] => rfl
  | (k, x) :: xs => by
    rw [membersImage, Source.membersOutline, membersOutline, outline_image x, outline_membersImage xs, Option.getD_some]

end

/-- **Values of one text have one outline.** -/
theorem outline_eq_of_chars {i j : Json} (h : i.chars = j.chars) : i.outline = j.outline := by
  have hi := Reader.readValue_chars i i.chars.length (max i.depth j.depth) (Nat.le_refl _)
    (Nat.le_max_left _ _) .nothing
  have hj := Reader.readValue_chars j j.chars.length (max i.depth j.depth) (Nat.le_refl _)
    (Nat.le_max_right _ _) .nothing
  rw [h, hj] at hi
  have himage : j.image = i.image := congrArg Prod.fst (Option.some.inj hi)
  rw [← outline_image i, ← himage, outline_image j]

theorem outline_eq_of_bytes {i j : Json} (h : Text.bytesOf i.render = Text.bytesOf j.render) :
    i.outline = j.outline := by
  have htext := congrArg Text.text? h
  rw [Text.text?_bytesOf, Text.text?_bytesOf] at htext
  exact outline_eq_of_chars (String.ofList_injective (Option.some.inj htext))

/-! ## Members of an outline -/

theorem valueOf?_membersOutline (key : String) (xs : List (String × Json)) :
    valueOf? key (membersOutline xs) = (valueOf? key xs).map outline := by
  induction xs with
  | nil => rfl
  | cons x xs ih =>
    obtain ⟨k, x⟩ := x
    rw [membersOutline, valueOf?, valueOf?]
    split
    · rfl
    · exact ih

theorem member?_outline (key : String) (j : Json) : j.outline.member? key = (j.member? key).map outline := by
  cases j with
  | object members => rw [outline]; exact valueOf?_membersOutline key members
  | number n => cases n <;> rfl
  | null => rfl
  | bool b => rfl
  | string s => rfl
  | array items => rfl

theorem outline_eq_string {j : Json} {s : String} (h : j.outline = .string s) : j = .string s := by
  cases j with
  | string t => simpa [outline] using h
  | number n => cases n <;> simp [outline] at h
  | null => simp [outline] at h
  | bool b => simp [outline] at h
  | array items => simp [outline] at h
  | object members => simp [outline] at h

theorem outline_eq_word {j : Json} {n : UInt64} (h : j.outline = .word n) : j = .word n := by
  cases j with
  | number m =>
    cases m with
    | whole w => simpa [outline, word] using h
    | real d => simp [outline, word] at h
  | string t => simp [outline, word] at h
  | null => simp [outline, word] at h
  | bool b => simp [outline, word] at h
  | array items => simp [outline, word] at h
  | object members => simp [outline, word] at h

theorem outline_eq_object {j : Json} {members : List (String × Json)} (h : j.outline = .object members) :
    ∃ found, j = .object found ∧ membersOutline found = members := by
  cases j with
  | object found => exact ⟨found, rfl, by simpa [outline] using h⟩
  | number n => cases n <;> simp [outline] at h
  | null => simp [outline] at h
  | bool b => simp [outline] at h
  | string t => simp [outline] at h
  | array items => simp [outline] at h

theorem keys_membersOutline (xs : List (String × Json)) : (membersOutline xs).map Prod.fst = xs.map Prod.fst := by
  induction xs with
  | nil => rfl
  | cons x xs ih => rw [membersOutline, List.map_cons, List.map_cons, ih]

/-! ## Values without doubles -/

mutual

/-- No double stands anywhere in the value. -/
def NoReal : Json → Prop
  | .number (.real _) => False
  | .array items => NoRealItems items
  | .object members => NoRealMembers members
  | .null | .bool _ | .number (.whole _) | .string _ => True

def NoRealItems : List Json → Prop
  | [] => True
  | x :: xs => x.NoReal ∧ NoRealItems xs

def NoRealMembers : List (String × Json) → Prop
  | [] => True
  | (_, x) :: xs => x.NoReal ∧ NoRealMembers xs

end

mutual

/-- The members of every object come in key order, each key once. -/
def Ordered : Json → Prop
  | .array items => OrderedItems items
  | .object members => Increasing members ∧ OrderedMembers members
  | .null | .bool _ | .number _ | .string _ => True

def OrderedItems : List Json → Prop
  | [] => True
  | x :: xs => x.Ordered ∧ OrderedItems xs

def OrderedMembers : List (String × Json) → Prop
  | [] => True
  | (_, x) :: xs => x.Ordered ∧ OrderedMembers xs

end

mutual

/-- Only the value itself has its outline, if there is no double in it. -/
theorem eq_of_outline_eq : ∀ {i j : Json}, j.NoReal → i.outline = j.outline → i = j
  | i, .null, _, h => by
    cases i with
    | null => rfl
    | number n => cases n <;> simp [outline] at h
    | _ => simp [outline] at h
  | i, .bool b, _, h => by
    cases i with
    | bool a => simpa [outline] using h
    | number n => cases n <;> simp [outline] at h
    | _ => simp [outline] at h
  | i, .number (.whole w), _, h => by
    cases i with
    | number n =>
      cases n with
      | whole v => simpa [outline] using h
      | real d => simp [outline] at h
    | _ => simp [outline] at h
  | i, .number (.real d), hj, _ => by rw [NoReal] at hj; exact hj.elim
  | i, .string s, _, h => outline_eq_string (h.trans (by rw [outline]))
  | i, .array ys, hj, h => by
    cases i with
    | array xs =>
      rw [NoReal] at hj
      exact congrArg Json.array (eq_of_itemsOutline_eq hj (by simpa [outline] using h))
    | number n => cases n <;> simp [outline] at h
    | _ => simp [outline] at h
  | i, .object ys, hj, h => by
    cases i with
    | object xs =>
      rw [NoReal] at hj
      exact congrArg Json.object (eq_of_membersOutline_eq hj (by simpa [outline] using h))
    | number n => cases n <;> simp [outline] at h
    | _ => simp [outline] at h

theorem eq_of_itemsOutline_eq : ∀ {xs ys : List Json}, NoRealItems ys → itemsOutline xs = itemsOutline ys → xs = ys
  | [], [], _, _ => rfl
  | [], _ :: _, _, h => by simp [itemsOutline] at h
  | _ :: _, [], _, h => by simp [itemsOutline] at h
  | x :: xs, y :: ys, hys, h => by
    rw [NoRealItems] at hys
    simp only [itemsOutline, List.cons.injEq] at h
    rw [eq_of_outline_eq hys.1 h.1, eq_of_itemsOutline_eq hys.2 h.2]

theorem eq_of_membersOutline_eq :
    ∀ {xs ys : List (String × Json)}, NoRealMembers ys → membersOutline xs = membersOutline ys → xs = ys
  | [], [], _, _ => rfl
  | [], _ :: _, _, h => by simp [membersOutline] at h
  | _ :: _, [], _, h => by simp [membersOutline] at h
  | (k, x) :: xs, (l, y) :: ys, hys, h => by
    rw [NoRealMembers] at hys
    simp only [membersOutline, List.cons.injEq, Prod.mk.injEq] at h
    rw [h.1.1, eq_of_outline_eq hys.1 h.1.2, eq_of_membersOutline_eq hys.2 h.2]

end

mutual

theorem image_eq : ∀ {j : Json}, j.NoReal → j.image = j.toSource
  | .null, _ => by rw [image, toSource]
  | .bool b, _ => by rw [image, toSource]
  | .number (.whole w), _ => by rw [image, numberImage, toSource]
  | .number (.real d), h => by rw [NoReal] at h; exact h.elim
  | .string s, _ => by rw [image, toSource]
  | .array items, h => by rw [NoReal] at h; rw [image, toSource, itemsImage_eq h]
  | .object members, h => by rw [NoReal] at h; rw [image, toSource, membersImage_eq h]

theorem itemsImage_eq : ∀ {xs : List Json}, NoRealItems xs → itemsImage xs = itemsToSource xs
  | [], _ => rfl
  | x :: xs, h => by rw [NoRealItems] at h; rw [itemsImage, itemsToSource, image_eq h.1, itemsImage_eq h.2]

theorem membersImage_eq : ∀ {xs : List (String × Json)}, NoRealMembers xs → membersImage xs = membersToSource xs
  | [], _ => rfl
  | (k, x) :: xs, h => by
    rw [NoRealMembers] at h
    rw [membersImage, membersToSource, image_eq h.1, membersImage_eq h.2]

end

mutual

/-- A value whose objects are in key order is the value of its document. -/
theorem toJson?_toSource : ∀ {j : Json}, j.Ordered → j.toSource.toJson? = some j
  | .null, _ => by rw [toSource, Source.toJson?]
  | .bool b, _ => by rw [toSource, Source.toJson?]
  | .number n, _ => by rw [toSource, Source.toJson?]
  | .string s, _ => by rw [toSource, Source.toJson?]
  | .array items, h => by
    rw [Ordered] at h
    rw [toSource, Source.toJson?, itemsToJson?_itemsToSource h, Option.map_some]
  | .object members, h => by
    rw [Ordered] at h
    rw [toSource, Source.toJson?, membersToJson?_membersToSource h.2, Option.map_some, ofMembers, ofTable,
      Table.ofList_entries ⟨members, h.1⟩]

theorem itemsToJson?_itemsToSource :
    ∀ {xs : List Json}, OrderedItems xs → Source.itemsToJson? (itemsToSource xs) = some xs
  | [], _ => rfl
  | x :: xs, h => by
    rw [OrderedItems] at h
    rw [itemsToSource, Source.itemsToJson?, toJson?_toSource h.1, itemsToJson?_itemsToSource h.2]
    rfl

theorem membersToJson?_membersToSource :
    ∀ {xs : List (String × Json)}, OrderedMembers xs → Source.membersToJson? (membersToSource xs) = some xs
  | [], _ => rfl
  | (k, x) :: xs, h => by
    rw [OrderedMembers] at h
    rw [membersToSource, Source.membersToJson?, toJson?_toSource h.1, membersToJson?_membersToSource h.2]
    rfl

end

/-- A text is read as the image of its value, as far as the reader goes. -/
theorem ofBytes?_renderIn (j : Json) : Source.ofBytes? (Text.bytesOf j.render) = some (imageIn maxDepth j) := by
  have hread := Reader.readValue_charsIn j (j.chars.length + 1) maxDepth (Nat.le_succ _) .nothing
  rw [List.append_nil] at hread
  rw [Source.ofBytes?, Text.glyphs_bytesOf, render, String.toList_ofList, Reader.readGlyphs, List.length_map, hread]
  rfl

/-- **A text is read back as the document of its value**, if there is no double in the value and it does not nest too
deep. -/
theorem ofBytes?_render {j : Json} (hreal : j.NoReal) (hdepth : j.depth ≤ maxDepth) :
    Source.ofBytes? (Text.bytesOf j.render) = some j.toSource := by
  rw [ofBytes?_renderIn, imageIn_eq_image j hdepth, image_eq hreal]

end SupplyTrail.Json
