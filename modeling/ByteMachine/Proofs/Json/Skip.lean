import ByteMachine.Proofs.Json.Grammar

/-! Well-formed text is passed over, at any depth: `skip` stops exactly where a value ends. The fuel
is no limit, since a step into a bracket is paid for by the two brackets. -/

namespace ByteMachine.Json

theorem skipValue_skipBlanks (fuel : Nat) (text : List Char) :
    skipValue fuel (skipBlanks text) = skipValue fuel text := by
  cases fuel with
  | zero => rw [skipValue, skipValue]
  | succ fuel => rw [skipValue, skipBlanks_skipBlanks, skipValue]

theorem skipValue_append (fuel : Nat) {before : List Char} (hb : Blanks before)
    (text : List Char) : skipValue fuel (before ++ text) = skipValue fuel text := by
  rw [← skipValue_skipBlanks, skipBlanks_append hb, skipValue_skipBlanks]

/-- Passes over one or more items of a container and its closing bracket. -/
def skipItems : Container → Nat → List Char → Except Failure (List Char)
  | .array => skipElements
  | .object => skipMembers

theorem skipItems_skipBlanks (container : Container) (fuel : Nat) (text : List Char) :
    skipItems container fuel (skipBlanks text) = skipItems container fuel text := by
  cases container with
  | array =>
    change skipElements fuel (skipBlanks text) = skipElements fuel text
    cases fuel with
    | zero => rw [skipElements, skipElements]
    | succ fuel => rw [skipElements, skipValue_skipBlanks, skipElements]
  | object =>
    change skipMembers fuel (skipBlanks text) = skipMembers fuel text
    cases fuel with
    | zero => rw [skipMembers, skipMembers]
    | succ fuel => rw [skipMembers, skipBlanks_skipBlanks, skipMembers]

/-- No item starts with the closing bracket. -/
theorem skipItems_closing (container : Container) (fuel : Nat) (rest after : List Char) :
    skipItems container fuel (container.closing :: rest) ≠ .ok after := by
  cases container with
  | array =>
    cases fuel with
    | zero => simp [skipItems, skipElements]
    | succ fuel =>
      cases fuel with
      | zero => simp [skipItems, skipElements, skipValue, bind, Except.bind]
      | succ fuel =>
        have hskip : skipBlanks (']' :: rest) = ']' :: rest := skipBlanks_cons (by decide) rest
        have hdigit : isDigit ']' = false := by decide
        simp [skipItems, Container.closing, skipElements, skipValue, hskip, hdigit, bind,
          Except.bind]
  | object =>
    cases fuel with
    | zero => simp [skipItems, skipMembers]
    | succ fuel =>
      have hskip : skipBlanks ('}' :: rest) = '}' :: rest := skipBlanks_cons (by decide) rest
      simp [skipItems, Container.closing, skipMembers, hskip]

/-! ## Brackets -/

theorem skipValue_empty (container : Container) (fuel : Nat) {text : List Char}
    (h : Blanks text) (rest : List Char) :
    skipValue (fuel + 1) (container.opening :: text ++ [container.closing] ++ rest) =
      .ok rest := by
  cases container with
  | array =>
    have hinner : skipBlanks (text ++ ']' :: rest) = ']' :: rest := by
      rw [skipBlanks_append h, skipBlanks_cons (by decide)]
    simp [Container.opening, Container.closing, skipValue,
      skipBlanks_cons (c := '[') (by decide), hinner]
  | object =>
    have hinner : skipBlanks (text ++ '}' :: rest) = '}' :: rest := by
      rw [skipBlanks_append h, skipBlanks_cons (by decide)]
    simp [Container.opening, Container.closing, skipValue,
      skipBlanks_cons (c := '{') (by decide), hinner]

theorem skipValue_filled (container : Container) (fuel : Nat) {text rest after : List Char}
    (h : skipItems container fuel (text ++ container.closing :: rest) = .ok after) :
    skipValue (fuel + 1) (container.opening :: text ++ [container.closing] ++ rest) =
      .ok after := by
  rw [← skipItems_skipBlanks] at h
  have hhead : ∀ others,
      skipBlanks (text ++ container.closing :: rest) ≠ container.closing :: others := by
    intro others hothers
    rw [hothers] at h
    exact skipItems_closing _ _ _ _ h
  cases container with
  | array =>
    simp only [Container.opening, Container.closing, List.cons_append, List.append_assoc,
      List.nil_append, skipValue, skipBlanks_cons (c := '[') (by decide)]
    split
    · rename_i others hothers
      exact absurd hothers (hhead others)
    · exact h
  | object =>
    simp only [Container.opening, Container.closing, List.cons_append, List.append_assoc,
      List.nil_append, skipValue, skipBlanks_cons (c := '{') (by decide)]
    split
    · rename_i others hothers
      exact absurd hothers (hhead others)
    · exact h

/-! ## Parts -/

/-- What may follow an item, and what becomes of the rest there. -/
inductive Follows (container : Container) (fuel : Nat) :
    List Char → Except Failure (List Char) → Prop
  | comma (others : List Char) :
      Follows container fuel (',' :: others) (skipItems container fuel others)
  | closing (rest : List Char) : Follows container fuel (container.closing :: rest) (.ok rest)

/-- A part of a text is passed over. -/
def Skips : Part → List Char → Prop
  | .value, text => ∀ fuel rest, 2 * text.length < fuel → Delimited rest →
      skipValue fuel (text ++ rest) = .ok rest
  | .item container, text => ∀ fuel follow result, 2 * text.length < fuel →
      Follows container fuel follow result →
        skipItems container (fuel + 1) (text ++ follow) = result
  | .items container, text => ∀ fuel rest, 2 * text.length + 1 < fuel →
      skipItems container fuel (text ++ container.closing :: rest) = .ok rest

theorem Follows.delimited {container : Container} {fuel : Nat} {follow : List Char}
    {result : Except Failure (List Char)} (h : Follows container fuel follow result) :
    Delimited follow := by
  cases h with
  | comma others => exact delimited_cons (by decide) others
  | closing rest => cases container <;> exact delimited_cons (by decide) rest

theorem skips_element {before value after : List Char} (hb : Blanks before)
    (h : Skips .value value) (ha : Blanks after) :
    Skips (.item .array) (before ++ value ++ after) := by
  intro fuel follow result hfuel hfollow
  have hlength : 2 * value.length < fuel := by
    simp only [List.length_append] at hfuel
    omega
  have hvalue := h fuel (after ++ follow) hlength (delimited_append ha hfollow.delimited)
  simp only [List.append_assoc, skipItems, skipElements, skipValue_append fuel hb, hvalue, bind,
    Except.bind, skipBlanks_append ha]
  cases hfollow with
  | comma others => rw [skipBlanks_cons (by decide)]; rfl
  | closing rest => rw [Container.closing, skipBlanks_cons (by decide)]; rfl

theorem skips_member {before name middle gap value after : List Char} (hb : Blanks before)
    (hname : StringBody name) (hm : Blanks middle) (hg : Blanks gap) (h : Skips .value value)
    (ha : Blanks after) :
    Skips (.item .object)
      (before ++ '"' :: name ++ '"' :: middle ++ ':' :: gap ++ value ++ after) := by
  intro fuel follow result hfuel hfollow
  have hlength : 2 * value.length < fuel := by
    simp only [List.length_append, List.length_cons] at hfuel
    omega
  have hvalue := h fuel (after ++ follow) hlength (delimited_append ha hfollow.delimited)
  have hstring := skipString_body hname (middle ++ ':' :: (gap ++ (value ++ (after ++ follow))))
  have hcolon : readColon (middle ++ ':' :: (gap ++ (value ++ (after ++ follow)))) =
      .ok (gap ++ (value ++ (after ++ follow))) := by
    rw [readColon, skipBlanks_append hm, skipBlanks_cons (by decide)]
    rfl
  simp only [List.append_assoc, List.cons_append, skipItems, skipMembers, skipBlanks_append hb,
    skipBlanks_cons (c := '"') (by decide), hstring, hcolon, skipValue_append fuel hg, hvalue, bind,
    Except.bind, skipBlanks_append ha]
  cases hfollow with
  | comma others => rw [skipBlanks_cons (by decide)]; rfl
  | closing rest => rw [Container.closing, skipBlanks_cons (by decide)]; rfl

theorem skips_keyword {c : Char} {word : List Char}
    (h : (c, word) ∈
      [('n', ['u', 'l', 'l']), ('t', ['r', 'u', 'e']), ('f', ['a', 'l', 's', 'e'])]) :
    Skips .value (c :: word) := by
  intro fuel rest hfuel hrest
  obtain ⟨fuel, rfl⟩ := Nat.exists_eq_succ_of_ne_zero (Nat.ne_zero_of_lt hfuel)
  have hword := keyword_append word rest
  simp only [List.mem_cons, Prod.mk.injEq, List.not_mem_nil, or_false] at h
  rcases h with ⟨rfl, rfl⟩ | ⟨rfl, rfl⟩ | ⟨rfl, rfl⟩ <;>
    simpa [skipValue, skipBlanks_cons, blanks] using hword

theorem skips_string {body : List Char} (h : StringBody body) :
    Skips .value ('"' :: body ++ ['"']) := by
  intro fuel rest hfuel hrest
  obtain ⟨fuel, rfl⟩ := Nat.exists_eq_succ_of_ne_zero (Nat.ne_zero_of_lt hfuel)
  have hbody := skipString_body h rest
  simpa [skipValue, skipBlanks_cons, blanks] using hbody

theorem skips_number {text : List Char} (h : NumberText text) : Skips .value text := by
  intro fuel rest hfuel hrest
  obtain ⟨fuel, rfl⟩ := Nat.exists_eq_succ_of_ne_zero (Nat.ne_zero_of_lt hfuel)
  obtain ⟨numeral, hread⟩ :=
    Numeral.read_number .malformed h (Numeral.endsNumber_of_delimited hrest)
  have hskip : skipNumeral (text ++ rest) = .ok rest := by
    rw [skipNumeral, hread]
    rfl
  obtain ⟨c, more, rfl, hc⟩ := Numeral.exists_cons_of_number h
  obtain ⟨hblank, hother⟩ := not_mem_of_startsNumber hc
  simp only [List.mem_cons, List.not_mem_nil, or_false, not_or] at hother
  obtain ⟨hn, ht, hf, hq, ha, ho⟩ := hother
  rw [List.cons_append] at hskip ⊢
  rw [skipValue, skipBlanks_cons hblank]
  simpa [hn, ht, hf, hq, ha, ho, hc] using hskip

theorem skips_items {container : Container} {text : List Char}
    (h : Skips (.item container) text) {fuel : Nat} {follow : List Char}
    {result : Except Failure (List Char)} (hfuel : 2 * text.length + 1 < fuel)
    (hfollow : Follows container (fuel - 1) follow result) :
    skipItems container fuel (text ++ follow) = result := by
  obtain ⟨fuel, rfl⟩ := Nat.exists_eq_succ_of_ne_zero (Nat.ne_zero_of_lt hfuel)
  exact h fuel follow result (Nat.lt_of_succ_lt_succ hfuel) hfollow

theorem skips_of_wellFormed {part : Part} {text : List Char} (h : WellFormed part text) :
    Skips part text := by
  induction h with
  | null => exact skips_keyword (by decide)
  | true => exact skips_keyword (by decide)
  | false => exact skips_keyword (by decide)
  | string h => exact skips_string h
  | number h => exact skips_number h
  | empty container h =>
    intro fuel rest hfuel hrest
    obtain ⟨fuel, rfl⟩ := Nat.exists_eq_succ_of_ne_zero (Nat.ne_zero_of_lt hfuel)
    exact skipValue_empty container fuel h rest
  | @filled container text h ih =>
    intro fuel rest hfuel hrest
    obtain ⟨fuel, rfl⟩ := Nat.exists_eq_succ_of_ne_zero (Nat.ne_zero_of_lt hfuel)
    apply skipValue_filled container fuel
    apply ih
    simp only [List.length_append, List.length_cons, List.length_nil] at hfuel
    omega
  | element hb h ha ih => exact skips_element hb ih ha
  | member hb hname hm hg h ha ih => exact skips_member hb hname hm hg ih ha
  | last h ih =>
    intro fuel rest hfuel
    exact skips_items ih hfuel (.closing rest)
  | @more container text others h ho ih iho =>
    intro fuel rest hfuel
    simp only [List.length_append, List.length_cons] at hfuel
    rw [List.append_assoc, List.cons_append]
    have hothers := iho (fuel - 1) rest (by omega)
    rw [← hothers]
    exact skips_items ih (by omega) (.comma _)

/-- A well-formed value is passed over, up to where it ends. -/
theorem skip_append {before : List Char} (hb : Blanks before) {text rest : List Char}
    (h : WellFormed .value text) (hrest : Delimited rest) :
    skip (before ++ (text ++ rest)) = .ok rest := by
  rw [skip, skipValue_append _ hb]
  apply skips_of_wellFormed h _ _ _ hrest
  simp only [List.length_append]
  omega

end ByteMachine.Json
