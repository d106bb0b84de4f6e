/-! Sets of characters, given as ranges of code points with both ends included. On ascending ranges
a search may stop early (`isWithin_iff`). -/

namespace ByteMachine.Text

/-- Ranges that follow each other without overlap, none below `least`. -/
def areAscending (least : Nat) : List (Nat × Nat) → Bool
  | [] => true
  | (first, last) :: rest => least ≤ first && first ≤ last && areAscending (last + 1) rest

/-- Whether ascending ranges hold the character: the first one that does not end before it
decides. -/
def isWithin (ranges : List (Nat × Nat)) (c : Char) : Bool :=
  (ranges.find? fun (_, last) => c.toNat ≤ last).any fun (first, _) => first ≤ c.toNat

/-- The number of code points in the ranges. -/
def codePointCount (ranges : List (Nat × Nat)) : Nat :=
  ranges.foldl (fun count (first, last) => count + (last - first + 1)) 0

theorem le_of_areAscending {least : Nat} {ranges : List (Nat × Nat)} {first last : Nat}
    (h : areAscending least ranges = true) (hmem : (first, last) ∈ ranges) : least ≤ first := by
  induction ranges generalizing least with
  | nil => simp at hmem
  | cons range rest ih =>
    obtain ⟨low, high⟩ := range
    simp only [areAscending, Bool.and_eq_true, decide_eq_true_eq] at h
    rcases List.mem_cons.1 hmem with heq | hrest
    · simp_all
    · have := ih h.2 hrest
      omega

theorem isWithin_iff {least : Nat} {ranges : List (Nat × Nat)} {c : Char}
    (h : areAscending least ranges = true) :
    isWithin ranges c = true ↔
      ∃ first last, (first, last) ∈ ranges ∧ first ≤ c.toNat ∧ c.toNat ≤ last := by
  induction ranges generalizing least with
  | nil => simp [isWithin]
  | cons range rest ih =>
    obtain ⟨low, high⟩ := range
    simp only [areAscending, Bool.and_eq_true, decide_eq_true_eq] at h
    by_cases hc : c.toNat ≤ high
    · simp only [isWithin, List.find?_cons, hc, decide_true, Option.any_some, decide_eq_true_eq]
      refine ⟨fun hlow => ⟨low, high, by simp, hlow, hc⟩, ?_⟩
      rintro ⟨first, last, hmem, hfirst, -⟩
      rcases List.mem_cons.1 hmem with heq | hrest
      · simp_all
      · have := le_of_areAscending h.2 hrest
        omega
    · have hskip : isWithin ((low, high) :: rest) c = isWithin rest c := by
        simp [isWithin, hc]
      rw [hskip, ih h.2]
      constructor
      · rintro ⟨first, last, hmem, hin⟩
        exact ⟨first, last, List.mem_cons_of_mem _ hmem, hin⟩
      · rintro ⟨first, last, hmem, hfirst, hlast⟩
        rcases List.mem_cons.1 hmem with heq | hrest
        · obtain ⟨rfl, rfl⟩ := Prod.mk.inj heq
          exact absurd hlast hc
        · exact ⟨first, last, hrest, hfirst, hlast⟩

end ByteMachine.Text
