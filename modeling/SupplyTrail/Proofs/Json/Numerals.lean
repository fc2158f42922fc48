import SupplyTrail.Json.Printer
import SupplyTrail.Json.Reader
/-!
# Numerals — what is written for a number is read as a number

A written number is a numeral of the grammar: digits without a needless zero in front, then a fraction or an exponent
that have digits.  A reader that meets one takes all of it and stops where it ends.
-/
namespace SupplyTrail.Json

open Text (Glyph)

/-- What may follow a value inside a compact text. -/
inductive Stops : List Glyph → Prop
  | nothing : Stops []
  | comma (rest : List Glyph) : Stops (some ',' :: rest)
  | bracket (rest : List Glyph) : Stops (some ']' :: rest)
  | brace (rest : List Glyph) : Stops (some '\x7d' :: rest)

namespace Numeral

/-- Digits, at least one. -/
def IsDigits (cs : List Char) : Prop := cs ≠ [] ∧ ∀ c ∈ cs, Text.isDigit c = true

structure Grammatical (n : Numeral) : Prop where
  integer : IsDigits n.integer
  /-- A zero stands in front only if it stands alone. -/
  leading : ∀ c cs, n.integer ≠ '0' :: c :: cs
  fraction : ∀ ds, n.fraction = some ds → IsDigits ds
  exponent : ∀ down ds, n.exponent = some (down, ds) → IsDigits ds

def fractionChars : Option (List Char) → List Char
  | none => []
  | some ds => '.' :: ds

def exponentChars : Option (Bool × List Char) → List Char
  | none => []
  | some (down, ds) => 'e' :: (if down then '-' else '+') :: ds

/-- The numeral as it is written, without its sign. -/
def chars (n : Numeral) : List Char := n.integer ++ (fractionChars n.fraction ++ exponentChars n.exponent)

/-- What a numeral is read as: a number, or a part that stands for no value. -/
def source (n : Numeral) : Source :=
  match n.value? with
  | some v => .number v
  | none => .unreadable

end Numeral

namespace Reader

open Numeral (IsDigits fractionChars exponentChars)

/-- The text goes on with something that is no digit. -/
def PastDigits (r : List Glyph) : Prop := ∀ c rest, r = some c :: rest → Text.isDigit c = false

theorem Stops.pastDigits {r : List Glyph} (h : Stops r) : PastDigits r := by
  intro c rest hr
  subst hr
  cases h <;> decide

theorem readDigits_append {cs : List Char} (h : ∀ c ∈ cs, Text.isDigit c = true) {r : List Glyph} (hr : PastDigits r) :
    readDigits (cs.map some ++ r) = (cs, r) := by
  induction cs with
  | nil =>
    match r with
    | [] => rfl
    | none :: rest => rfl
    | some c :: rest =>
      have hc := hr c rest rfl
      simp [readDigits, hc]
  | cons c cs ih =>
    have hc : Text.isDigit c = true := h c List.mem_cons_self
    have hcs := ih fun x hx => h x (List.mem_cons_of_mem _ hx)
    simp only [List.map_cons, List.cons_append, readDigits, hc, if_true, hcs]

theorem readInteger_append {cs : List Char} (h : IsDigits cs) (hlead : ∀ c ds, cs ≠ '0' :: c :: ds) {r : List Glyph}
    (hr : PastDigits r) : readInteger (cs.map some ++ r) = some (cs, r) := by
  unfold readInteger
  rw [readDigits_append h.2 hr]
  split
  · rename_i heq
    exact absurd (Prod.mk.inj heq).1 h.1
  · rename_i heq
    exact absurd (Prod.mk.inj heq).1 (hlead _ _)
  · rfl

def PastFraction (r : List Glyph) : Prop := ∀ rest, r ≠ some '.' :: rest

theorem readFraction_append {f : Option (List Char)} (h : ∀ ds, f = some ds → IsDigits ds) {r : List Glyph}
    (hr : PastDigits r) (hf : PastFraction r) : readFraction ((fractionChars f).map some ++ r) = some (f, r) := by
  cases f with
  | none =>
    simp only [fractionChars, List.map_nil, List.nil_append]
    unfold readFraction
    split
    · rename_i rest
      exact absurd rfl (hf rest)
    · rfl
  | some ds =>
    have hds := h ds rfl
    simp only [fractionChars, List.map_cons, List.cons_append, readFraction]
    rw [readDigits_append hds.2 hr]
    split
    · rename_i heq
      exact absurd (Prod.mk.inj heq).1 hds.1
    · rename_i heq
      obtain ⟨rfl, rfl⟩ := Prod.mk.inj heq
      rfl

theorem readExponent_append {x : Option (Bool × List Char)} (h : ∀ down ds, x = some (down, ds) → IsDigits ds)
    {r : List Glyph} (hr : Stops r) : readExponent ((exponentChars x).map some ++ r) = some (x, r) := by
  cases x with
  | none => cases hr <;> rfl
  | some x =>
    obtain ⟨down, ds⟩ := x
    have hds := h down ds rfl
    have hsign : readSign (some (if down then '-' else '+') :: (ds.map some ++ r)) = (down, ds.map some ++ r) := by
      cases down <;> rfl
    simp only [exponentChars, List.map_cons, List.cons_append, readExponent, true_or, if_true, hsign]
    rw [readDigits_append hds.2 (Stops.pastDigits hr)]
    split
    · rename_i heq
      exact absurd (Prod.mk.inj heq).1 hds.1
    · rename_i heq
      obtain ⟨rfl, rfl⟩ := Prod.mk.inj heq
      rfl

/-- **A numeral of the grammar is read to its end.** -/
theorem readNumber_chars {n : Numeral} (h : n.Grammatical) {r : List Glyph} (hr : Stops r) :
    readNumber n.negative (n.chars.map some ++ r) = some (n.source, r) := by
  have hexp : PastDigits ((exponentChars n.exponent).map some ++ r) := by
    cases hx : n.exponent with
    | none => exact Stops.pastDigits hr
    | some x =>
      intro c rest hc
      simp only [exponentChars, List.map_cons, List.cons_append, List.cons.injEq, Option.some.injEq] at hc
      rw [← hc.1]
      decide
  have hpoint : PastFraction ((exponentChars n.exponent).map some ++ r) := by
    cases hx : n.exponent with
    | none => cases hr <;> exact fun rest hc => by cases hc
    | some x => exact fun rest hc => by cases hc
  have hfrac : PastDigits ((fractionChars n.fraction ++ exponentChars n.exponent).map some ++ r) := by
    cases hf : n.fraction with
    | none => exact hexp
    | some ds =>
      intro c rest hc
      simp only [fractionChars, List.cons_append, List.map_cons, List.cons.injEq, Option.some.injEq] at hc
      rw [← hc.1]
      decide
  have hint : readInteger (n.chars.map some ++ r) =
      some (n.integer, (fractionChars n.fraction ++ exponentChars n.exponent).map some ++ r) := by
    rw [Numeral.chars, List.map_append, List.append_assoc]
    exact readInteger_append h.integer h.leading hfrac
  have hfraction : readFraction ((fractionChars n.fraction ++ exponentChars n.exponent).map some ++ r) =
      some (n.fraction, (exponentChars n.exponent).map some ++ r) := by
    rw [List.map_append, List.append_assoc]
    exact readFraction_append h.fraction hexp hpoint
  unfold readNumber
  rw [hint]
  simp only [Option.bind_eq_bind, Option.bind_some]
  rw [hfraction]
  simp only [Option.bind_some]
  rw [readExponent_append h.exponent hr]
  simp only [Option.bind_some, Numeral.source]
  cases n.value? <;> rfl

end Reader

/-! ## Whole numbers -/

namespace Numeral

theorem isDigits_decimalChars (n : Nat) : IsDigits (Text.decimalChars n) := by
  refine ⟨fun h => ?_, fun c hc => Text.isDigit_of_mem_decimalChars hc⟩
  rw [Text.decimalChars] at h
  split at h
  · cases h
  · exact absurd h (by simp)

theorem decimalChars_head {n : Nat} (h : n ≠ 0) : ∃ c cs, Text.decimalChars n = c :: cs ∧ c ≠ '0' := by
  induction n using Nat.strongRecOn with
  | ind n ih =>
    rw [Text.decimalChars]
    split
    · rename_i hlt
      refine ⟨Text.digitChar n, [], rfl, ?_⟩
      have hdigit : ∀ k < 10, k ≠ 0 → Text.digitChar k ≠ '0' := by decide
      exact hdigit n hlt h
    · obtain ⟨c, cs, hcs, hc⟩ := ih (n / 10) (by omega) (by omega)
      exact ⟨c, cs ++ [Text.digitChar (n % 10)], by rw [hcs, List.cons_append], hc⟩

theorem decimalChars_zero : Text.decimalChars 0 = ['0'] := by
  rw [Text.decimalChars, if_pos (by decide)]
  rfl

theorem decimalChars_leading (n : Nat) (c : Char) (cs : List Char) : Text.decimalChars n ≠ '0' :: c :: cs := by
  by_cases h : n = 0
  · rw [h, decimalChars_zero]
    simp
  · obtain ⟨d, ds, hds, hd⟩ := decimalChars_head h
    rw [hds]
    exact fun heq => hd (List.cons.inj heq).1

def ofWhole (w : Whole) : Numeral := ⟨decide (w.value < 0), Text.decimalChars w.value.natAbs, none, none⟩

theorem ofWhole_grammatical (w : Whole) : (ofWhole w).Grammatical :=
  ⟨isDigits_decimalChars _, decimalChars_leading _, fun _ h => (by cases h), fun _ _ h => (by cases h)⟩

theorem ofInt?_value (w : Whole) : Whole.ofInt? w.value = some w := by
  unfold Whole.ofInt?
  rw [dif_pos ⟨w.least, w.most⟩]

/-- **A whole number is read as itself.** -/
theorem source_ofWhole (w : Whole) : (ofWhole w).source = .number (.whole w) := by
  have hvalue : (ofWhole w).value? = some (.whole w) := by
    simp only [value?, ofWhole, Text.ofDigits_decimalChars]
    by_cases hneg : w.value < 0
    · have hne : ¬ ((w.value.natAbs : Nat) : Int) = 0 := by omega
      have heq : -((w.value.natAbs : Nat) : Int) = w.value := by omega
      simp only [hneg, decide_true, if_true, if_neg hne, heq, ofInt?_value, Option.map_some]
      rfl
    · have heq : ((w.value.natAbs : Nat) : Int) = w.value := by omega
      simp only [hneg, decide_false, Bool.false_eq_true, if_false, heq, ofInt?_value, Option.map_some]
      rfl
  rw [source, hvalue]

theorem wholeChars_eq (w : Whole) :
    wholeChars w.value = if (ofWhole w).negative then '-' :: (ofWhole w).chars else (ofWhole w).chars := by
  simp only [wholeChars, ofWhole, chars, fractionChars, exponentChars, List.append_nil, decide_eq_true_eq]

/-! ## Doubles -/

open Decimal (Double Scientific)

/-- A decimal without digits has no exponent either. -/
def Settled (s : Scientific) : Prop := s.digits = 0 → s.exponent = 0

theorem significand_pos {d : Double} (h : d.isZero = false) : 0 < d.significand := by
  have hbits : d.magnitudeBits ≠ 0 := by simpa [Double.isZero] using h
  simp only [Double.significand]
  have htwo : 0 < Decimal.twoTo 52 := Nat.two_pow_pos 52
  split
  · rename_i hlt
    rw [Nat.mod_eq_of_lt hlt]
    omega
  · omega

theorem ne_zero_of_admits {r : Decimal.Rounding} (hlow : 0 < r.low) {x unitNum unitDen : Nat} (hden : 0 < unitDen)
    (h : r.admits x unitNum unitDen = true) : x ≠ 0 := by
  have hpos : 0 < r.low * unitDen := Nat.mul_pos hlow hden
  intro hzero
  simp only [Decimal.Rounding.admits, hzero, Nat.zero_mul] at h
  split at h
  · have hle : r.low * unitDen ≤ 0 := of_decide_eq_true (Bool.and_eq_true_iff.1 h).1
    omega
  · have hlt : r.low * unitDen < 0 := of_decide_eq_true (Bool.and_eq_true_iff.1 h).1
    omega

theorem digits_of_admits {r : Decimal.Rounding} (hlow : 0 < r.low) {x y unitNum unitDen : Nat} (hden : 0 < unitDen)
    {p : Int} {s : Scientific}
    (hs : (if r.admits x unitNum unitDen = true then some (⟨x, p⟩ : Scientific)
      else if r.admits y unitNum unitDen = true then some ⟨y, p⟩ else none) = some s) : s.digits ≠ 0 := by
  split at hs
  · rename_i hx
    cases hs
    exact ne_zero_of_admits hlow hden hx
  · split at hs
    · rename_i hy
      cases hs
      exact ne_zero_of_admits hlow hden hy
    · cases hs

/-- A grid that has a decimal for a double other than zero has one with digits. -/
theorem onGrid?_digits {d : Double} (h : d.isZero = false) {p : Int} {s : Scientific}
    (hs : Decimal.onGrid? d p = some s) : s.digits ≠ 0 := by
  have hlow : 0 < (Decimal.roundingOf d).low := by
    have := significand_pos h
    simp only [Decimal.roundingOf]
    split <;> omega
  have hten : 0 < (if 0 ≤ p then (Decimal.tenTo p.toNat, 1) else (1, Decimal.tenTo (-p).toNat)).2 := by
    split
    · exact Nat.one_pos
    · exact Nat.pow_pos (by decide)
  have hden : 0 < (if 0 ≤ p then (Decimal.tenTo p.toNat, 1) else (1, Decimal.tenTo (-p).toNat)).2 *
      Decimal.twoTo d.scale := Nat.mul_pos hten (Nat.two_pow_pos d.scale)
  simp only [Decimal.onGrid?] at hs
  exact digits_of_admits hlow hden hs

theorem settled_firstGrid {d : Double} (h : d.isZero = false) (lead : Int) :
    ∀ (more count : Nat), Settled (Decimal.firstGrid d lead more count)
  | 0, _ => fun _ => rfl
  | more + 1, count => by
    rw [Decimal.firstGrid]
    split
    · rename_i s hs
      exact fun hzero => absurd hzero (onGrid?_digits h hs)
    · exact settled_firstGrid h lead more (count + 1)

theorem settled_dropZeros : ∀ (fuel : Nat) (s : Scientific), Settled s → Settled (Decimal.dropZeros fuel s)
  | 0, _, h => h
  | fuel + 1, s, h => by
    rw [Decimal.dropZeros]
    split
    · rename_i hdrop
      refine settled_dropZeros fuel _ fun hzero => ?_
      have hdigits : s.digits / 10 = 0 := hzero
      omega
    · exact h

theorem settled_shortest (d : Double) : Settled (Decimal.shortest d) := by
  unfold Decimal.shortest
  split
  · exact fun _ => rfl
  · rename_i h
    exact settled_dropZeros _ _ (settled_firstGrid (by simpa using h) _ _ _)

/-- The text is that of a numeral with a fraction or an exponent. -/
def IsRealText (cs : List Char) : Prop :=
  ∃ n : Numeral, n.Grammatical ∧ n.negative = false ∧ cs = n.chars ∧ (n.fraction ≠ none ∨ n.exponent ≠ none)

theorem isDigits_append {cs ds : List Char} (hcs : IsDigits cs) (hds : ∀ c ∈ ds, Text.isDigit c = true) :
    IsDigits (cs ++ ds) :=
  ⟨fun h => hcs.1 (List.append_eq_nil_iff.1 h).1, fun c hc => (List.mem_append.1 hc).elim (hcs.2 c) (hds c)⟩

theorem isDigits_zero : IsDigits ['0'] := by
  refine ⟨List.cons_ne_nil _ _, fun c hc => ?_⟩
  rw [List.mem_singleton.1 hc]
  decide

theorem isDigit_of_mem_replicate {n : Nat} {c : Char} (h : c ∈ List.replicate n '0') : Text.isDigit c = true := by
  rw [(List.mem_replicate.1 h).2]
  decide

theorem isRealText_positional {s : Scientific} (hs : Settled s) : IsRealText s.positional := by
  have hdigits : IsDigits s.text := isDigits_decimalChars s.digits
  have hhead : s.digits ≠ 0 → ∃ c cs, s.text = c :: cs ∧ c ≠ '0' := decimalChars_head
  simp only [Scientific.positional]
  split
  · rename_i hexp
    refine ⟨⟨false, s.text ++ List.replicate s.exponent.toNat '0', some ['0'], none⟩,
      ⟨isDigits_append hdigits fun _ => isDigit_of_mem_replicate, fun c cs => ?_, fun ds h => ?_,
        fun _ _ h => (by cases h)⟩,
      rfl, by simp [chars, fractionChars, exponentChars], .inl (by simp)⟩
    · by_cases hzero : s.digits = 0
      · simp [Scientific.text, hzero, hs hzero, decimalChars_zero]
      · obtain ⟨d, ds, hds, hd⟩ := hhead hzero
        simp only [hds]
        exact fun heq => hd (List.cons.inj heq).1
    · exact Option.some.inj h ▸ isDigits_zero
  · rename_i hexp
    have hne : s.digits ≠ 0 := fun hzero => hexp (by have := hs hzero; omega)
    by_cases hpoint : 0 < (s.text.length : Int) + s.exponent
    · rw [if_pos hpoint]
      have hlen : (s.text.length + s.exponent).toNat < s.text.length := by omega
      obtain ⟨d, ds, hds, hd⟩ := hhead hne
      refine ⟨⟨false, s.text.take (s.text.length + s.exponent).toNat,
        some (s.text.drop (s.text.length + s.exponent).toNat), none⟩,
        ⟨⟨?_, fun c hc => hdigits.2 c (List.mem_of_mem_take hc)⟩, fun c cs => ?_, fun fs h => ?_,
          fun _ _ h => (by cases h)⟩,
        rfl, by simp [chars, fractionChars, exponentChars], .inl (by simp)⟩
      · rw [ne_eq, List.take_eq_nil_iff]
        exact fun h => h.elim (by omega) hdigits.1
      · obtain ⟨k, hk⟩ : ∃ k, (s.text.length + s.exponent).toNat = k + 1 :=
          ⟨_, (Nat.succ_pred_eq_of_pos (by omega)).symm⟩
        simp only [hk]
        rw [hds, List.take_succ_cons]
        exact fun heq => hd (List.cons.inj heq).1
      · obtain rfl := Option.some.inj h
        refine ⟨?_, fun c hc => hdigits.2 c (List.mem_of_mem_drop hc)⟩
        rw [ne_eq, List.drop_eq_nil_iff]
        omega
    · rw [if_neg hpoint]
      refine ⟨⟨false, ['0'], some (List.replicate (-(↑s.text.length + s.exponent)).toNat '0' ++
        s.text), none⟩, ⟨isDigits_zero, by simp, fun fs h => ?_, fun _ _ h => (by cases h)⟩, rfl,
        by simp [chars, fractionChars, exponentChars], .inl (by simp)⟩
      obtain rfl := Option.some.inj h
      exact ⟨fun h => hdigits.1 (List.append_eq_nil_iff.1 h).2,
        fun c hc => (List.mem_append.1 hc).elim isDigit_of_mem_replicate (hdigits.2 c)⟩

theorem isRealText_withExponent (s : Scientific) : IsRealText s.withExponent := by
  obtain ⟨hne, hall⟩ := isDigits_decimalChars s.digits
  obtain ⟨d, ds, hds⟩ := List.exists_cons_of_ne_nil hne
  have hds' : ∀ c ∈ ds, Text.isDigit c = true := fun c hc => hall c (by rw [hds]; exact List.mem_cons_of_mem _ hc)
  simp only [Scientific.withExponent, Scientific.text, hds]
  refine ⟨⟨false, [d], if ds = [] then none else some ds,
    some (decide ((↑(d :: ds).length + s.exponent - 1 : Int) < 0),
      Text.decimalChars (↑(d :: ds).length + s.exponent - 1 : Int).natAbs)⟩,
    ⟨⟨by simp, fun c hc => ?_⟩, by simp, fun fs h => ?_, fun down xs h => ?_⟩, rfl, ?_, .inr (by simp)⟩
  · obtain rfl := List.mem_singleton.1 hc
    exact hall c (by rw [hds]; exact List.mem_cons_self)
  · by_cases hnil : ds = []
    · simp [hnil] at h
    · simp only [hnil, if_false, Option.some.injEq] at h
      exact h ▸ ⟨hnil, hds'⟩
  · obtain ⟨-, rfl⟩ := Prod.mk.inj (Option.some.inj h)
    exact isDigits_decimalChars _
  · cases ds with
    | nil => simp [chars, fractionChars, exponentChars]
    | cons e es => simp [chars, fractionChars, exponentChars]

/-- **What is written for a double is a numeral with a fraction or an exponent.** -/
theorem shortText_eq (d : Double) :
    ∃ n : Numeral, n.Grammatical ∧ (n.fraction ≠ none ∨ n.exponent ≠ none) ∧
      Decimal.shortText d = if n.negative then '-' :: n.chars else n.chars := by
  have hbody : IsRealText (if d.isZero then ['0', '.', '0']
      else if -4 ≤ ((Decimal.shortest d).text.length : Int) + (Decimal.shortest d).exponent ∧
        ((Decimal.shortest d).text.length : Int) + (Decimal.shortest d).exponent ≤ 16
      then (Decimal.shortest d).positional else (Decimal.shortest d).withExponent) := by
    split
    · refine ⟨⟨false, ['0'], some ['0'], none⟩, ⟨isDigits_zero, by simp, fun ds h => ?_, fun _ _ h => (by cases h)⟩,
        rfl, rfl, .inl (by simp)⟩
      exact Option.some.inj h ▸ isDigits_zero
    · split
      · exact isRealText_positional (settled_shortest d)
      · exact isRealText_withExponent _
  obtain ⟨n, hgram, -, hchars, hreal⟩ := hbody
  refine ⟨{ n with negative := d.isNegative },
    ⟨hgram.integer, hgram.leading, hgram.fraction, hgram.exponent⟩, hreal, ?_⟩
  simp only [Decimal.shortText, hchars]
  rfl

/-- A numeral with a fraction or an exponent is never read as a whole number. -/
theorem source_real {n : Numeral} (h : n.fraction ≠ none ∨ n.exponent ≠ none) :
    n.source = .unreadable ∨ ∃ d, n.source = .number (.real d) := by
  have hvalue : n.value? = n.magnitude?.map fun d => .real (d.withSign n.negative) := by
    obtain ⟨negative, integer, fraction, exponent⟩ := n
    cases fraction with
    | some ds => rfl
    | none =>
      cases exponent with
      | some x => rfl
      | none => simp at h
  rw [source, hvalue]
  cases n.magnitude? with
  | none => exact .inl rfl
  | some d => exact .inr ⟨_, rfl⟩

end Numeral

end SupplyTrail.Json
