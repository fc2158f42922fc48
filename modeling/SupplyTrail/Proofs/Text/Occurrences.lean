import Mathlib.Data.List.Basic
import SupplyTrail.Text.Search
import SupplyTrail.Text.Utf8
/-!
# Occurrences — the first place where a pattern stands

A list is searched for a pattern from its head on (`afterFirst?`), and what the search finds is the first place where the
pattern stands (`afterFirst?_eq_some_iff`).  A text can be searched character by character or byte by byte: UTF-8 never
lets the bytes of a pattern begin inside of a character (`chars_of_bytes`), so both searches find the same place
(`afterFirst?_bytesOf`).
-/
namespace SupplyTrail.Text

/-! ## Searching a list -/

section Lists

variable {α : Type} {pattern text before rest : List α}

/-- The first place where a pattern stands in a list: what is before it, and what follows it. -/
structure FirstAt (pattern text before rest : List α) : Prop where
  split : text = before ++ (pattern ++ rest)
  least : ∀ before' rest', text = before' ++ (pattern ++ rest') → before.length ≤ before'.length

theorem FirstAt.unique {before' rest' : List α} (h : FirstAt pattern text before rest)
    (h' : FirstAt pattern text before' rest') : before = before' ∧ rest = rest' := by
  have hlength : before.length = before'.length :=
    Nat.le_antisymm (h.least _ _ h'.split) (h'.least _ _ h.split)
  obtain ⟨hbefore, htail⟩ := List.append_inj (h.split.symm.trans h'.split) hlength
  exact ⟨hbefore, List.append_cancel_left htail⟩

theorem FirstAt.nil (text : List α) (h : pattern ++ rest = text) : FirstAt pattern text [] rest :=
  ⟨h.symm, fun _ _ _ => Nat.zero_le _⟩

/-- Where the pattern does not stand at the head, its first place is that in the tail. -/
theorem FirstAt.cons {a : α} (hhead : ¬ pattern <+: a :: text) (h : FirstAt pattern text before rest) :
    FirstAt pattern (a :: text) (a :: before) rest := by
  refine ⟨by rw [h.split, List.cons_append], fun before' rest' hsplit => ?_⟩
  cases before' with
  | nil => exact absurd ⟨rest', hsplit.symm⟩ hhead
  | cons b before' =>
    obtain ⟨-, htail⟩ := List.cons.inj hsplit
    exact Nat.succ_le_succ (h.least _ _ htail)

/-- A pattern whose last letter stands nowhere else in it cannot reach into what comes before it: where the pattern is
written behind a list without it, that is its first place. -/
theorem FirstAt.behind {init : List α} {last : α} (hlast : last ∉ init)
    (hbefore : ¬ (init ++ [last]) <:+: before) :
    FirstAt (init ++ [last]) (before ++ ((init ++ [last]) ++ rest)) before rest := by
  refine ⟨rfl, fun before' rest' hsplit => Nat.le_of_not_lt fun hshort => ?_⟩
  -- An earlier place either ends inside of `before`, or its last letter is one of `init`.
  by_cases hinside : before'.length + init.length < before.length
  · have hprefix : before' ++ (init ++ [last]) <+: before ++ ((init ++ [last]) ++ rest) :=
      ⟨rest', by rw [hsplit, List.append_assoc]⟩
    obtain ⟨more, hmore⟩ : before' ++ (init ++ [last]) <+: before :=
      List.prefix_of_prefix_length_le hprefix (List.prefix_append _ _) (by simp; omega)
    exact hbefore ⟨before', more, hmore⟩
  · have hat : (before' ++ (init ++ [last]) ++ rest')[before'.length + init.length]? = some last := by simp
    rw [List.append_assoc, ← hsplit, List.getElem?_append_right (by omega), List.append_assoc,
      List.getElem?_append_left (by omega)] at hat
    exact hlast (List.mem_of_getElem? hat)

variable [DecidableEq α]

theorem exists_firstAt_of_afterFirst? (h : afterFirst? pattern text = some rest) :
    ∃ before, FirstAt pattern text before rest := by
  induction text with
  | nil =>
    rw [afterFirst?] at h
    split at h
    · next hnil => cases h; exact ⟨[], .nil _ (by rw [hnil]; rfl)⟩
    · cases h
  | cons a text ih =>
    rw [afterFirst?] at h
    split at h
    · next hprefix =>
      obtain ⟨more, hmore⟩ := List.isPrefixOf_iff_prefix.1 hprefix
      rw [← hmore, List.drop_left, Option.some.injEq] at h
      exact ⟨[], .nil _ (h ▸ hmore)⟩
    · next hprefix =>
      obtain ⟨before, hfirst⟩ := ih h
      exact ⟨a :: before, hfirst.cons fun hhead => hprefix (List.isPrefixOf_iff_prefix.2 hhead)⟩

theorem not_infix_of_afterFirst? (h : afterFirst? pattern text = none) : ¬ pattern <:+: text := by
  induction text with
  | nil => intro hin; simp [afterFirst?, List.infix_nil.1 hin] at h
  | cons a text ih =>
    intro hin
    rw [afterFirst?] at h
    split at h
    · cases h
    · next hprefix =>
      rcases List.infix_cons_iff.1 hin with hhead | htail
      · exact hprefix (List.isPrefixOf_iff_prefix.2 hhead)
      · exact ih h htail

/-- **The search finds the first place where the pattern stands.** -/
theorem afterFirst?_eq_some_iff :
    afterFirst? pattern text = some rest ↔ ∃ before, FirstAt pattern text before rest := by
  refine ⟨exists_firstAt_of_afterFirst?, fun ⟨before, hfirst⟩ => ?_⟩
  cases hsearch : afterFirst? pattern text with
  | none => exact absurd ⟨before, rest, by rw [List.append_assoc, hfirst.split]⟩ (not_infix_of_afterFirst? hsearch)
  | some rest' =>
    obtain ⟨before', hfirst'⟩ := exists_firstAt_of_afterFirst? hsearch
    rw [(hfirst.unique hfirst').2]

/-- A pattern does not stand where one of its letters is missing. -/
theorem afterFirst?_eq_none {a : α} (hpattern : a ∈ pattern) (htext : a ∉ text) : afterFirst? pattern text = none := by
  refine Option.eq_none_iff_forall_ne_some.2 fun rest h => ?_
  obtain ⟨before, hfirst⟩ := exists_firstAt_of_afterFirst? h
  exact htext (by simp [hfirst.split, hpattern])

end Lists

/-! ## Searching the bytes of a text -/

section Bytes

open String (utf8EncodeChar)

variable {c : Char} {pattern text : List Char} {before after : List UInt8}

theorem bytesOf_eq_flatMap (s : String) : bytesOf s = s.toList.flatMap utf8EncodeChar := by
  rw [bytesOf, String.toUTF8_eq_toByteArray, ← String.utf8Encode_toList, List.utf8Encode, List.data_toByteArray]

/-- The bytes of a character begin with a byte that no character has in a later place. -/
theorem firstByte_of_utf8EncodeChar (c : Char) : ∃ b bs, utf8EncodeChar c = b :: bs ∧ b.IsUTF8FirstByte ∧
    ∀ b' ∈ bs, ¬ b'.IsUTF8FirstByte := by
  cases hbytes : utf8EncodeChar c with
  | nil => exact absurd hbytes String.utf8EncodeChar_ne_nil
  | cons b bs =>
    have hfirst : ∀ i (h : i < (b :: bs).length), (b :: bs)[i].IsUTF8FirstByte ↔ i = 0 := by
      rw [← hbytes]
      exact fun i h => UInt8.isUTF8FirstByte_getElem_utf8EncodeChar
    refine ⟨b, bs, rfl, (hfirst 0 (by simp)).2 rfl, fun b' hb' h => ?_⟩
    obtain ⟨i, hi, rfl⟩ := List.getElem_of_mem hb'
    exact absurd ((hfirst (i + 1) (by simpa using hi)).1 h) (by omega)

theorem chars_of_prefix (h : text.flatMap utf8EncodeChar = pattern.flatMap utf8EncodeChar ++ after) :
    ∃ rest, text = pattern ++ rest ∧ after = rest.flatMap utf8EncodeChar := by
  have hbytes : pattern.utf8Encode ++ after.toByteArray = text.utf8Encode := by
    simp only [List.utf8Encode, h, List.toByteArray_append]
  obtain ⟨rest, rfl⟩ := List.isPrefix_of_utf8Encode_append_eq_utf8Encode _ hbytes
  rw [List.flatMap_append] at h
  exact ⟨rest, rfl, (List.append_cancel_left h).symm⟩

/-- **The bytes of a pattern stand in the bytes of a text only where the pattern stands in the text.** -/
theorem chars_of_bytes (hpattern : pattern ≠ [])
    (h : text.flatMap utf8EncodeChar = before ++ (pattern.flatMap utf8EncodeChar ++ after)) :
    ∃ cs rest, text = cs ++ (pattern ++ rest) ∧ before = cs.flatMap utf8EncodeChar ∧
      after = rest.flatMap utf8EncodeChar := by
  induction text generalizing before with
  | nil =>
    obtain ⟨rfl, htail⟩ := List.append_eq_nil_iff.1 h.symm
    have hbytes : [].flatMap utf8EncodeChar = pattern.flatMap utf8EncodeChar ++ after := htail.symm
    obtain ⟨rest, htext, hafter⟩ := chars_of_prefix hbytes
    exact ⟨[], rest, htext, rfl, hafter⟩
  | cons c text ih =>
    obtain ⟨b, bs, hchar, hfirst, hlater⟩ := firstByte_of_utf8EncodeChar c
    cases before with
    | nil =>
      obtain ⟨rest, htext, hafter⟩ := chars_of_prefix h
      exact ⟨[], rest, htext, rfl, hafter⟩
    | cons b' before =>
      rw [List.flatMap_cons, hchar, List.cons_append, List.cons_append] at h
      obtain ⟨rfl, htail⟩ := List.cons.inj h
      -- The place is behind the first byte of `c`.  It is not inside of `c`, for there is no first byte there.
      have hout : ∃ more, before = bs ++ more ∧
          text.flatMap utf8EncodeChar = more ++ (pattern.flatMap utf8EncodeChar ++ after) := by
        rcases List.append_eq_append_iff.1 htail with hmore | ⟨inner, hbs, hinner⟩
        · exact hmore
        · cases inner with
          | nil => exact ⟨[], by simpa using hbs.symm, hinner.symm⟩
          | cons b' inner =>
            obtain ⟨d, ds, rfl⟩ := List.exists_cons_of_ne_nil hpattern
            obtain ⟨e, es, hd, hd', -⟩ := firstByte_of_utf8EncodeChar d
            rw [List.flatMap_cons, hd, List.cons_append, List.cons_append, List.cons_append] at hinner
            obtain ⟨rfl, -⟩ := List.cons.inj hinner
            exact absurd hd' (hlater _ (by simp [hbs]))
      obtain ⟨more, rfl, hmore⟩ := hout
      obtain ⟨cs, rest, rfl, rfl, rfl⟩ := ih hmore
      exact ⟨c :: cs, rest, rfl, by rw [List.flatMap_cons, hchar, List.cons_append], rfl⟩

/-- The first place of a pattern among the characters of a text is its first place among the bytes. -/
theorem FirstAt.bytesOf {pattern text : String} {cs rest : List Char} (hpattern : pattern ≠ "")
    (h : FirstAt pattern.toList text.toList cs rest) :
    FirstAt (bytesOf pattern) (bytesOf text) (bytesOf (.ofList cs)) (bytesOf (.ofList rest)) := by
  simp only [bytesOf_eq_flatMap, String.toList_ofList]
  refine ⟨by rw [h.split, List.flatMap_append, List.flatMap_append], fun before' after hsplit => ?_⟩
  obtain ⟨cs', rest', htext, rfl, -⟩ := chars_of_bytes (mt String.toList_eq_nil_iff.1 hpattern) hsplit
  obtain ⟨more, rfl⟩ : cs <+: cs' :=
    List.prefix_of_prefix_length_le ⟨_, h.split.symm⟩ ⟨_, htext.symm⟩ (h.least _ _ htext)
  rw [List.flatMap_append, List.length_append]
  exact Nat.le_add_right _ _

/-- **A search among the bytes of a text finds the end of a character**, and it is where the search among the characters
ends. -/
theorem afterFirst?_bytesOf {pattern : String} (hpattern : pattern ≠ "") (text : String) :
    afterFirst? (bytesOf pattern) (bytesOf text) =
      (afterFirst? pattern.toList text.toList).map fun rest => bytesOf (.ofList rest) := by
  cases hsearch : afterFirst? pattern.toList text.toList with
  | some rest =>
    obtain ⟨cs, hfirst⟩ := afterFirst?_eq_some_iff.1 hsearch
    exact afterFirst?_eq_some_iff.2 ⟨_, hfirst.bytesOf hpattern⟩
  | none =>
    refine Option.eq_none_iff_forall_ne_some.2 fun after hafter => ?_
    obtain ⟨before, hfirst⟩ := afterFirst?_eq_some_iff.1 hafter
    have hbytes := hfirst.split
    simp only [bytesOf_eq_flatMap] at hbytes
    obtain ⟨cs, rest, htext, -⟩ := chars_of_bytes (mt String.toList_eq_nil_iff.1 hpattern) hbytes
    exact not_infix_of_afterFirst? hsearch ⟨cs, rest, by rw [List.append_assoc, htext]⟩

end Bytes

end SupplyTrail.Text
