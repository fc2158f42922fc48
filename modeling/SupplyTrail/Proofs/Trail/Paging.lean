import Mathlib.Data.Nat.Find
import SupplyTrail.Proofs.Trail.Order
/-!
# Paging — a walk over the pages of a history meets every event once

A walk starts at the beginning and takes one page after another, each from where the one before it ended, with any
limits.  Its pages joined are a beginning of the history, up to the offset that the walk has come to
(`joined_walkPage`).  A page after which more follows is full, so a walk gets on by its limit with each of them, and a
walk whose limits are not zero comes to a page after which nothing follows (`exists_stopsAt`).
-/
namespace SupplyTrail

/-- The sum of two words, or the greatest word if the sum is none. -/
def saturatingAdd (a b : UInt64) : UInt64 := UInt64.ofNat (min (a.toNat + b.toNat) (UInt64.size - 1))

theorem toNat_saturatingAdd (a b : UInt64) :
    (saturatingAdd a b).toNat = min (a.toNat + b.toNat) (UInt64.size - 1) := by
  rw [saturatingAdd, UInt64.toNat_ofNat', Nat.mod_eq_of_lt]
  unfold UInt64.size
  omega

namespace History

/-! ## One page -/

theorem length_page (h : History) (offset limit : Nat) :
    (h.page offset limit).events.length = min limit (h.events.length - offset) := by
  rw [page, List.length_take, List.length_drop]

theorem hasMore_page_iff (h : History) (offset limit : Nat) :
    (h.page offset limit).hasMore = true ↔ offset + (h.page offset limit).events.length < h.events.length := by
  simp [page]

theorem hasMore_page_iff_exists (h : History) (offset limit : Nat) :
    (h.page offset limit).hasMore = true ↔
      ∃ i e, offset + (h.page offset limit).events.length ≤ i ∧ h.events[i]? = some e := by
  rw [hasMore_page_iff]
  constructor
  · exact fun hlt => ⟨_, _, Nat.le_refl _, List.getElem?_eq_getElem hlt⟩
  · rintro ⟨i, e, hi, he⟩
    obtain ⟨hlt, -⟩ := List.getElem?_eq_some_iff.1 he
    omega

/-- **Words tell the same**: where the sum of an offset and a count is no word, it is beyond the end, and so is the
greatest word. -/
theorem hasMore_page_iff_saturating {h : History} (hlength : h.events.length < UInt64.size) (offset : UInt64)
    (limit : Nat) : (h.page offset.toNat limit).hasMore = true ↔
      saturatingAdd offset (UInt64.ofNat (h.page offset.toNat limit).events.length) <
        UInt64.ofNat h.events.length := by
  have hle : (h.page offset.toNat limit).events.length ≤ h.events.length := by
    rw [length_page]
    omega
  have hcount : (UInt64.ofNat (h.page offset.toNat limit).events.length).toNat =
      (h.page offset.toNat limit).events.length :=
    UInt64.toNat_ofNat_of_lt' (Nat.lt_of_le_of_lt hle hlength)
  rw [hasMore_page_iff, UInt64.lt_iff_toNat_lt, toNat_saturatingAdd, hcount, UInt64.toNat_ofNat_of_lt' hlength]
  omega

theorem length_page_of_hasMore {h : History} {offset limit : Nat} (hmore : (h.page offset limit).hasMore = true) :
    (h.page offset limit).events.length = limit := by
  have hlt := (hasMore_page_iff h offset limit).1 hmore
  rw [length_page] at hlt ⊢
  omega

/-! ## Walks -/

/-- The offset that a walk has come to after so many pages, each taken where the one before it ended. -/
def walkOffset (h : History) (limits : Nat → Nat) : Nat → Nat
  | 0 => 0
  | n + 1 => h.walkOffset limits n + (h.page (h.walkOffset limits n) (limits n)).events.length

def walkPage (h : History) (limits : Nat → Nat) (n : Nat) : HistoryPage := h.page (h.walkOffset limits n) (limits n)

/-- A walk that stops at the first page after which nothing follows stops at this one. -/
structure StopsAt (h : History) (limits : Nat → Nat) (last : Nat) : Prop where
  more : ∀ n < last, (h.walkPage limits n).hasMore = true
  noMore : (h.walkPage limits last).hasMore = false

variable {h : History} {limits : Nat → Nat}

/-- **The pages of a walk joined are the beginning of the history** that the walk has come through. -/
theorem joined_walkPage (h : History) (limits : Nat → Nat) (n : Nat) :
    (List.range n).flatMap (fun k => (h.walkPage limits k).events) = h.events.take (h.walkOffset limits n) := by
  induction n with
  | zero => rfl
  | succ n ih =>
    have hpage : (h.events.drop (h.walkOffset limits n)).take (h.walkPage limits n).events.length =
        (h.walkPage limits n).events :=
      (List.prefix_iff_eq_take.1 (List.take_prefix (limits n) (h.events.drop (h.walkOffset limits n)))).symm
    rw [List.range_succ, List.flatMap_append, ih, List.flatMap_singleton, walkOffset, List.take_add]
    exact congrArg (h.events.take (h.walkOffset limits n) ++ ·) hpage.symm

/-- A walk gets on by at least one event with each page after which more follows. -/
theorem le_walkOffset (hlimits : ∀ n, 1 ≤ limits n) {n : Nat}
    (hmore : ∀ k < n, (h.walkPage limits k).hasMore = true) : n ≤ h.walkOffset limits n := by
  induction n with
  | zero => exact Nat.zero_le _
  | succ n ih =>
    have hfull := length_page_of_hasMore (hmore n (Nat.lt_succ_self n))
    have hbefore := ih fun k hk => hmore k (Nat.lt_succ_of_lt hk)
    have hlimit := hlimits n
    rw [walkOffset, hfull]
    omega

/-- **A walk ends**, at the latest with one page more than there are events. -/
theorem exists_stopsAt (hlimits : ∀ n, 1 ≤ limits n) : ∃ last ≤ h.events.length, StopsAt h limits last := by
  have hsome : ∃ n, (h.walkPage limits n).hasMore = false := by
    by_contra hnone
    simp only [not_exists, Bool.not_eq_false] at hnone
    have hfar := le_walkOffset hlimits fun k (_ : k < h.events.length) => hnone k
    have hlt := (hasMore_page_iff h _ _).1 (hnone h.events.length)
    omega
  have hfirst : StopsAt h limits (Nat.find hsome) :=
    ⟨fun n hn => by simpa using Nat.find_min hsome hn, Nat.find_spec hsome⟩
  refine ⟨_, ?_, hfirst⟩
  by_contra hlong
  have hfar := le_walkOffset hlimits fun k (hk : k < h.events.length) => hfirst.more k (by omega)
  have hlt := (hasMore_page_iff h _ _).1 (hfirst.more h.events.length (by omega))
  omega

/-- **A walk that has ended went through the whole history.** -/
theorem StopsAt.joined {last : Nat} (hstops : StopsAt h limits last) :
    (List.range (last + 1)).flatMap (fun n => (h.walkPage limits n).events) = h.events := by
  have hover := mt (hasMore_page_iff h (h.walkOffset limits last) (limits last)).2 (Bool.eq_false_iff.1 hstops.noMore)
  rw [joined_walkPage, walkOffset]
  exact List.take_of_length_le (Nat.not_lt.1 hover)

/-- How a history of some events orders them, and how it is paged. -/
structure PagesOf (p : ProductId) (given : List Event) (h : History) : Prop where
  product : h.product = p
  /-- It has the events in the order of their times, those of one time as they were given. -/
  sorted : SortedByTime given h.events
  /-- No other order of them is such. -/
  only : ∀ events, SortedByTime given events → events = h.events
  /-- A walk from the beginning, with any limits of at least one, ends at a page after which nothing follows, and its
  pages joined are the history. -/
  walks : ∀ limits : Nat → Nat, (∀ n, 1 ≤ limits n) → ∃ last ≤ h.events.length, h.StopsAt limits last ∧
    (List.range (last + 1)).flatMap (fun n => (h.walkPage limits n).events) = h.events
  total : ∀ offset limit, (h.page offset limit).total = h.events.length
  /-- More follows a page exactly if there is an event at its end or after it. -/
  more : ∀ offset limit, (h.page offset limit).hasMore = true ↔
    ∃ i e, offset + (h.page offset limit).events.length ≤ i ∧ h.events[i]? = some e
  /-- Words that are added up to the greatest word and no further tell the same of any history whose length is a
  word. -/
  words : h.events.length < UInt64.size → ∀ (offset : UInt64) (limit : Nat),
    (h.page offset.toNat limit).hasMore = true ↔
      saturatingAdd offset (UInt64.ofNat (h.page offset.toNat limit).events.length) < UInt64.ofNat h.events.length

/-- **Paging a history loses and repeats nothing**, whatever the events, the offsets and the limits are. -/
theorem paging_of_ofEvents (p : ProductId) (events : List Event) : PagesOf p events (ofEvents p events) where
  product := rfl
  sorted := sortedByTime_ofEvents p events
  only _ h := h.unique (sortedByTime_ofEvents p events)
  walks limits hlimits := by
    obtain ⟨last, hlast, hstops⟩ := exists_stopsAt (h := ofEvents p events) hlimits
    exact ⟨last, hlast, hstops, hstops.joined⟩
  total _ _ := rfl
  more := hasMore_page_iff_exists _
  words := hasMore_page_iff_saturating

end History

end SupplyTrail
