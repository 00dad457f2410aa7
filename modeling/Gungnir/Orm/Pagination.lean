import Gungnir.Orm.Window

/-!
# Pages

`paginate` asks for a page with a limit and an offset. The offset is a product of two values
of `size_t`, so it is the position of the page's first row modulo `2 ^ 64`: a page far behind
the end can show rows of an earlier one.
-/

namespace Gungnir.Orm

open Gungnir.Core List
open Gungnir.Library (bind_eq_ok)

/-! ## The query -/

/-- A query for models. Its plan has no aggregate: those are set in copies of it. -/
structure ModelQuery where
  plan : QueryPlan
  plain : plan.aggregate = none

structure Page (α : Type) where
  data : List α
  currentPage : UInt64
  perPage : UInt64
  total : UInt64
  lastPage : UInt64

namespace ModelQuery

variable {α : Type} (query : ModelQuery)

/-- `get`: the compiled statement selects from the rows of the query, which are given here
in its order. -/
def get (backend : Backend) (ordered : List α) : Except Exception (List α) := do
  let compiled ← compile query.plan backend
  return (compiled.bounds backend).elim [] fun bounds => cut bounds ordered

/-- The copy of the query that `paginate` runs. -/
def paged (page perPage : UInt64) : ModelQuery where
  plan := { query.plan with
    limit := some perPage.toNat
    offset := some ((page - 1) * perPage).toNat }
  plain := query.plain

/-- The rows are counted by another statement, and `quotient` is the quotient of two
doubles, rounded up. -/
def paginate (backend : Backend) (ordered : List α) (count : Except Exception UInt64)
    (quotient : UInt64 → UInt64 → UInt64) (page perPage : UInt64) : Except Exception (Page α) :=
  if page = 0 ∨ perPage = 0 then
    .error (.invalidArgument "ORM pagination page and per_page must be greater than zero")
  else if query.plan.distinct ∨ query.plan.groups ≠ [] ∨ query.plan.having ≠ [] then
    .error (.logicError
      "ORM paginate() currently requires an ungrouped, non-distinct model query")
  else do
    let total ← count
    let data ← (query.paged page perPage).get backend ordered
    return ⟨data, page, perPage, total, max 1 (quotient total perPage)⟩

/-! ## Rows of a page -/

variable {query : ModelQuery} {backend : Backend} {count : Except Exception UInt64}
  {quotient : UInt64 → UInt64 → UInt64} {page perPage : UInt64} {ordered : List α}
  {result : Page α}

section

variable (done : query.paginate backend ordered count quotient page perPage = .ok result)
include done

theorem paginate_accepts : 0 < page.toNat ∧ 0 < perPage.toNat := by
  unfold paginate at done
  split at done
  · cases done
  next positive =>
    have first : page.toNat ≠ 0 := fun zero => positive (.inl (UInt64.toNat.inj zero))
    have second : perPage.toNat ≠ 0 := fun zero => positive (.inr (UInt64.toNat.inj zero))
    exact ⟨Nat.pos_of_ne_zero first, Nat.pos_of_ne_zero second⟩

/-- What the page shows, with the offset that the code computes. -/
theorem paginate_data :
    result.data =
      (ordered.drop ((page.toNat - 1) * perPage.toNat % 2 ^ 64)).take perPage.toNat := by
  obtain ⟨paged, sized⟩ := paginate_accepts done
  have offset : ((page - 1) * perPage).toNat = (page.toNat - 1) * perPage.toNat % 2 ^ 64 := by
    have before : (page - 1).toNat = page.toNat - 1 :=
      UInt64.toNat_sub_of_le page 1 (UInt64.le_iff_toNat_le.mpr paged)
    rw [UInt64.toNat_mul, before]
  have limit : (query.paged page perPage).plan.limitOn backend = some perPage.toNat := by
    unfold QueryPlan.limitOn
    split
    · exact Option.filter_eq_some_iff.mpr ⟨rfl, by simpa using sized.ne'⟩
    · rfl
  unfold paginate at done
  split_ifs at done
  obtain ⟨total, _, done⟩ := bind_eq_ok.mp done
  obtain ⟨data, got, done⟩ := bind_eq_ok.mp done
  obtain ⟨compiled, compiling, got⟩ := bind_eq_ok.mp got
  rw [bounds_compile (query.paged page perPage).plain compiling, limit] at got
  cases done
  cases got
  rw [← offset]
  rfl

end

/-- The pages one after the other are the front of the list. -/
theorem flatMap_pages (size pages : Nat) (ordered : List α) :
    ((range pages).flatMap fun page => (ordered.drop (page * size)).take size) =
      ordered.take (pages * size) := by
  induction pages with
  | zero => simp
  | succ pages ih =>
    rw [range_succ, flatMap_append, ih, flatMap_singleton, Nat.succ_mul, take_add]

/-- Two windows of one size on the positions are the same if both are behind the end. -/
theorem window_range {first second size count : Nat} (sized : 0 < size) (apart : first < second) :
    ((range count).drop first).take size = ((range count).drop second).take size ↔
      count ≤ first := by
  constructor
  · intro same
    by_contra inside
    have heads := congrArg head? same
    rw [head?_take, head?_take, if_neg sized.ne', if_neg sized.ne', head?_drop, head?_drop,
      getElem?_range (by omega)] at heads
    rcases Nat.lt_or_ge second count with more | past
    · rw [getElem?_range more] at heads
      exact apart.ne (Option.some.inj heads)
    · rw [getElem?_eq_none (by simpa using past)] at heads
      cases heads
  · intro behind
    rw [drop_eq_nil_of_le (by simpa using behind),
      drop_eq_nil_of_le (by simpa using behind.trans apart.le)]

/-- The number of pages, rounded up. -/
def pageCount (rows size : Nat) : Nat := (rows + size - 1) / size

/-- A row is its position in the result. A page shows the rows of its number if and only if
their first position is below `2 ^ 64` or the remainder of it is behind the end as well; and
the pages that cover the result give all of it, each row once. -/
theorem paginate_rows {rows : Nat} {result : Page Nat}
    (done : query.paginate backend (range rows) count quotient page perPage = .ok result) :
    (result.data =
        ((range rows).drop ((page.toNat - 1) * perPage.toNat)).take perPage.toNat ↔
      (page.toNat - 1) * perPage.toNat < 2 ^ 64 ∨
        rows ≤ (page.toNat - 1) * perPage.toNat % 2 ^ 64) ∧
    ∀ pages : Nat → Page Nat, rows < 2 ^ 64 →
      (∀ number < pageCount rows perPage.toNat, query.paginate backend (range rows) count quotient
        (UInt64.ofNat (number + 1)) perPage = .ok (pages number)) →
      ((range (pageCount rows perPage.toNat)).flatMap fun number => (pages number).data) =
        range rows := by
  obtain ⟨_, sized⟩ := paginate_accepts done
  constructor
  · rw [paginate_data done]
    rcases Nat.lt_or_ge ((page.toNat - 1) * perPage.toNat) (2 ^ 64) with small | large
    · rw [Nat.mod_eq_of_lt small]
      exact iff_of_true rfl (.inl small)
    · have apart := (Nat.mod_lt ((page.toNat - 1) * perPage.toNat) (by decide)).trans_le large
      rw [window_range sized apart]
      exact ⟨.inr, fun either => either.resolve_left large.not_gt⟩
  · intro pages bounded each
    have covered : rows ≤ pageCount rows perPage.toNat * perPage.toNat := by
      have remainder := Nat.mod_lt (rows + perPage.toNat - 1) sized
      have divided := Nat.div_add_mod' (rows + perPage.toNat - 1) perPage.toNat
      unfold pageCount
      omega
    have shown : ∀ number ∈ range (pageCount rows perPage.toNat), (pages number).data =
        ((range rows).drop (number * perPage.toNat)).take perPage.toNat := by
      intro number member
      have listed := mem_range.mp member
      -- The pages that cover the result begin inside it.
      have inside : number * perPage.toNat < rows := by
        have started := (Nat.lt_div_iff_mul_lt sized).mp listed
        omega
      have small : number < rows := (Nat.le_mul_of_pos_right _ sized).trans_lt inside
      rw [paginate_data (each number listed),
        UInt64.toNat_ofNat_of_lt' (by simp only [UInt64.size]; omega), Nat.add_sub_cancel,
        Nat.mod_eq_of_lt (inside.trans bounded)]
    rw [flatMap_congr shown, flatMap_pages]
    exact take_of_length_le (by simpa using covered)

def allPosts : ModelQuery := ⟨{ table := ascii "posts" }, rfl⟩

/-- Three rows, two on a page. -/
theorem paginate_rows_sample :
    (((allPosts.paginate .sqlite (range 3) (.ok 3) (fun _ _ => 2) 2 2).map Page.data).toOption =
      some [2]) ∧ ((range 3).drop ((2 - 1) * 2)).take 2 = [2] := by
  have done : allPosts.paginate .sqlite (range 3) (.ok 3) (fun _ _ => 2) 2 2 =
      .ok ⟨[2], 2, 2, 3, 2⟩ := rfl
  exact ⟨by rw [done]; rfl, ((paginate_rows done).1.mpr (.inl (by decide))).symm⟩

/-- One row: page `2 ^ 32 + 1` of `2 ^ 32` rows each shows it again. -/
theorem page_wraps :
    allPosts.paginate .sqlite (range 1) (.ok 1) (fun _ _ => 1) 4294967297 4294967296 =
      .ok ⟨[0], 4294967297, 4294967296, 1, 1⟩ ∧
    ((range 1).drop ((4294967297 - 1) * 4294967296)).take 4294967296 = [] :=
  ⟨rfl, rfl⟩

end ModelQuery

end Gungnir.Orm
