import Mathlib.Data.List.MinMax

/-!
# Selecting one index of a table in one pass

A pass over a list of indices into a table keeps the best eligible entry seen
so far: a candidate replaces it when it beats it. Indices outside the table are
skipped, and may repeat.

When beating is having the smaller key, the pass is an argmin over the indices
that name something eligible (`select_eq_argmin`). So it selects the first of the
least of them (`select_eq_some_iff`), and nothing only where there is none
(`select_eq_none_iff`).
-/

set_option autoImplicit false

namespace Retrovert.Selection

variable {α : Type*}

/-- Whether a candidate replaces the best index so far. -/
def takes (table : List α) (beats : α → α → Bool) (candidate : α) : Option Nat → Bool
  | none => true
  | some best => (table[best]?).all (beats candidate)

/-- One pass over `indices`, starting from the best index so far. -/
def select (table : List α) (eligible : α → Bool) (beats : α → α → Bool) :
    Option Nat → List Nat → Option Nat
  | best, [] => best
  | best, index :: rest =>
      match table[index]? with
      | none => select table eligible beats best rest
      | some candidate =>
          if eligible candidate && takes table beats candidate best then
            select table eligible beats (some index) rest
          else
            select table eligible beats best rest

/-! ## The first places of a list -/

/-- Leaving entries out of a list does not change which of two that stay comes first. -/
theorem idxOf_filter_le_iff [DecidableEq α] {keeps : α → Bool} {list : List α} {first second : α}
    (keeps_first : keeps first = true) (keeps_second : keeps second = true) :
    (list.filter keeps).idxOf first ≤ (list.filter keeps).idxOf second ↔
      list.idxOf first ≤ list.idxOf second := by
  induction list with
  | nil => simp
  | cons head rest ih =>
      by_cases here : head = first
      · subst here
        simp [keeps_first]
      by_cases there : head = second
      · subst there
        simp [keeps_second, List.idxOf_cons_ne _ here]
      cases kept : keeps head with
      | false => simpa [kept, List.idxOf_cons_ne _ here, List.idxOf_cons_ne _ there] using ih
      | true => simpa [kept, List.idxOf_cons_ne _ here, List.idxOf_cons_ne _ there] using ih

theorem idxOf_range {length index : Nat} (within : index < length) :
    (List.range length).idxOf index = index := by
  have listed : index < (List.range length).length := by rwa [List.length_range]
  have placed := (List.nodup_range (n := length)).idxOf_getElem index listed
  rwa [List.getElem_range] at placed

/-! ## A pass is an argmin -/

/-- Whether an index names an eligible entry. -/
def admits (table : List α) (eligible : α → Bool) (index : Nat) : Bool :=
  (table[index]?).any eligible

theorem admits_eq_true {table : List α} {eligible : α → Bool} {index : Nat} :
    admits table eligible index = true ↔
      ∃ entry, table[index]? = some entry ∧ eligible entry = true := by
  cases found : table[index]? with
  | none => simp [admits, found]
  | some entry => simp [admits, found]

variable {κ : Type*}

/-- What an index ranks by; one outside the table comes last. -/
def rankAt (table : List α) (key : α → κ) (index : Nat) : WithTop κ :=
  (table[index]?).elim ⊤ fun entry => (key entry : WithTop κ)

theorem rankAt_of_found {table : List α} {key : α → κ} {index : Nat} {entry : α}
    (found : table[index]? = some entry) : rankAt table key index = key entry := by
  rw [rankAt, found, Option.elim_some]

variable [LinearOrder κ]

/-- One entry beats another when its key is the smaller one. -/
def Ranks (beats : α → α → Bool) (key : α → κ) : Prop :=
  ∀ candidate held, beats candidate held = true ↔ key candidate < key held

variable {table : List α} {eligible : α → Bool} {beats : α → α → Bool} {key : α → κ}

theorem takes_iff (ranks : Ranks beats key) {candidate : α} {index : Nat}
    (found : table[index]? = some candidate) (best : Nat) :
    takes table beats candidate (some best) = true ↔
      rankAt table key index < rankAt table key best := by
  cases held : table[best]? with
  | none => simp [takes, rankAt, found, held]
  | some entry => simp [takes, rankAt, found, held, ranks candidate entry]

theorem select_eq_foldl (ranks : Ranks beats key) (best : Option Nat) (indices : List Nat) :
    select table eligible beats best indices =
      (indices.filter (admits table eligible)).foldl
        (List.argAux fun candidate held => rankAt table key candidate < rankAt table key held)
        best := by
  induction indices generalizing best with
  | nil => rfl
  | cons index rest ih =>
      simp only [select]
      cases found : table[index]? with
      | none => simpa [admits, found] using ih best
      | some candidate =>
          cases able : eligible candidate with
          | false => simpa [admits, found, able] using ih best
          | true =>
              cases best with
              | none => simpa [admits, found, able, takes, List.argAux] using ih (some index)
              | some held =>
                  have beaten := takes_iff ranks found held
                  by_cases replaces : rankAt table key index < rankAt table key held
                  · simpa [admits, found, able, beaten.mpr replaces, List.argAux, replaces] using
                      ih (some index)
                  · have refused : takes table beats candidate (some held) = false :=
                      Bool.eq_false_iff.mpr fun taken => replaces (beaten.mp taken)
                    simpa [admits, found, able, refused, List.argAux, replaces] using
                      ih (some held)

theorem select_eq_argmin (ranks : Ranks beats key) (indices : List Nat) :
    select table eligible beats none indices =
      (indices.filter (admits table eligible)).argmin (rankAt table key) :=
  select_eq_foldl ranks none indices

/-! ## What a pass selects -/

variable (table eligible key) in
/-- `chosen` is the first of the indices to name an eligible entry of the least key. -/
def First (indices : List Nat) (chosen : Nat) : Prop :=
  chosen ∈ indices ∧ ∃ entry, table[chosen]? = some entry ∧ eligible entry = true ∧
    ∀ other ∈ indices, ∀ rival, table[other]? = some rival → eligible rival = true →
      key entry < key rival ∨
        key entry = key rival ∧ indices.idxOf chosen ≤ indices.idxOf other

/-- An index has the smaller rank, or the same and the earlier place, exactly when its entry does. -/
theorem precedes_iff {indices : List Nat} {chosen other : Nat} {entry rival : α}
    (found : table[chosen]? = some entry) (able : eligible entry = true)
    (found_other : table[other]? = some rival) (able_other : eligible rival = true) :
    (rankAt table key chosen ≤ rankAt table key other ∧
        (rankAt table key other ≤ rankAt table key chosen →
          (indices.filter (admits table eligible)).idxOf chosen ≤
            (indices.filter (admits table eligible)).idxOf other)) ↔
      key entry < key rival ∨
        key entry = key rival ∧ indices.idxOf chosen ≤ indices.idxOf other := by
  rw [idxOf_filter_le_iff (admits_eq_true.mpr ⟨entry, found, able⟩)
      (admits_eq_true.mpr ⟨rival, found_other, able_other⟩),
    rankAt_of_found found, rankAt_of_found found_other, WithTop.coe_le_coe, WithTop.coe_le_coe]
  rcases lt_trichotomy (key entry) (key rival) with less | same | more
  · simp [less, less.le, less.not_ge]
  · simp [same]
  · simp [more.not_ge, more.not_gt, more.ne']

theorem select_eq_some_iff (ranks : Ranks beats key) {indices : List Nat} {chosen : Nat} :
    select table eligible beats none indices = some chosen ↔
      First table eligible key indices chosen := by
  rw [select_eq_argmin ranks, List.argmin_eq_some_iff, List.mem_filter, admits_eq_true]
  constructor
  · rintro ⟨⟨member, entry, found, able⟩, least, earliest⟩
    refine ⟨member, entry, found, able, ?_⟩
    intro other listed rival found_other able_other
    have kept : other ∈ indices.filter (admits table eligible) :=
      List.mem_filter.mpr ⟨listed, admits_eq_true.mpr ⟨rival, found_other, able_other⟩⟩
    exact (precedes_iff found able found_other able_other).mp
      ⟨least other kept, earliest other kept⟩
  · rintro ⟨member, entry, found, able, first⟩
    have precedes : ∀ other ∈ indices.filter (admits table eligible),
        rankAt table key chosen ≤ rankAt table key other ∧
          (rankAt table key other ≤ rankAt table key chosen →
            (indices.filter (admits table eligible)).idxOf chosen ≤
              (indices.filter (admits table eligible)).idxOf other) := by
      intro other kept
      obtain ⟨listed, admitted⟩ := List.mem_filter.mp kept
      obtain ⟨rival, found_other, able_other⟩ := admits_eq_true.mp admitted
      exact (precedes_iff found able found_other able_other).mpr
        (first other listed rival found_other able_other)
    exact ⟨⟨member, entry, found, able⟩, fun other kept => (precedes other kept).1,
      fun other kept => (precedes other kept).2⟩

theorem select_eq_none_iff (ranks : Ranks beats key) {indices : List Nat} :
    select table eligible beats none indices = none ↔
      ∀ index ∈ indices, ∀ entry, table[index]? = some entry → eligible entry = false := by
  rw [select_eq_argmin ranks, List.argmin_eq_none, List.filter_eq_nil_iff]
  refine forall₂_congr fun index _ => ?_
  rw [admits_eq_true, not_exists]
  simp only [not_and, Bool.not_eq_true]

end Retrovert.Selection
