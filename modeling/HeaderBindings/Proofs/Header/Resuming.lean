import HeaderBindings.Proofs.Header.Segments

/-!
# A scanner that goes on from where it stopped

What a header means does not depend on how it is cut: a scanner can stop between any two lines and
go on later, provided that it keeps what it remembers.  Three facts about that are needed wherever
text is put in front of other text, behind it or into it.

* `Scanner.run_append`: what is found in lines and in further lines behind them is what is found in
  the first ones, and then what is found in the further ones by the scanner that has taken in the
  first ones, `Scanner.after`.
* `Scanner.run_later`: further down the same is found further down.  The number of a line is copied
  into blocks and has no influence on anything else (`Scanner.step_eq_onLine`).
* `Scanner.run_found_congr`: of what a scanner remembers, the documentation comment has no influence
  on which declarations are found.
-/

set_option autoImplicit false

namespace HeaderBindings

/-- The block as if it were found on the given line. -/
def Block.onLine (n : Nat) (b : Block) : Block := { b with line := n }

/-- The block so many lines further down. -/
def Block.later (k : Nat) (b : Block) : Block := { b with line := b.line + k }

/-- Whether a block comment is open behind the given lines. -/
def commentAfter (inComment : Bool) (raws : List Text) : Bool :=
  raws.foldl (fun inComment raw ↦ (lineCode inComment raw).2) inComment

namespace Scanner

variable {kind : BlockKind} {s s' : Scanner} {raws : List Text} {n : Nat}

/-! ## The number of a line -/

/-- What the scanner remembers behind a line, whichever number the line has. -/
def next (kind : BlockKind) (s : Scanner) (raw : Text) : Scanner := (s.step kind raw 0).1

/-- What the scanner remembers behind lines. -/
def after (kind : BlockKind) (s : Scanner) (raws : List Text) : Scanner :=
  raws.foldl (next kind) s

theorem close_eq_onLine (kind : BlockKind) (s : Scanner) (code : List Text) (n : Nat) :
    s.close kind code n = ((s.close kind code 0).1, (s.close kind code 0).2.map (.onLine n)) := by
  simp only [close]
  cases kind.parts? (Text.joinWith [' '] code.reverse) <;> rfl

theorem code_eq_onLine (kind : BlockKind) (s : Scanner) (t : Text) (n : Nat) :
    s.code kind t n = ((s.code kind t 0).1, (s.code kind t 0).2.map (.onLine n)) := by
  have hclose := close_eq_onLine kind s
  simp only [code]
  cases s.pending with
  | some earlier =>
    simp only
    split
    · exact hclose (t :: earlier) n
    · rfl
  | none =>
    simp only
    split
    · split
      · exact hclose [t] n
      · rfl
    · rfl

/-- **The number of a line** is the one that a block gets, and nothing else depends on it. -/
theorem step_eq_onLine (kind : BlockKind) (s : Scanner) (raw : Text) (n : Nat) :
    s.step kind raw n = (s.next kind raw, (s.step kind raw 0).2.map (.onLine n)) := by
  have hcode : s.rawCode kind raw n =
      ((s.rawCode kind raw 0).1, (s.rawCode kind raw 0).2.map (.onLine n)) := by
    simp only [rawCode]
    split
    · rfl
    · exact code_eq_onLine kind _ _ n
  simp only [next, step]
  split
  · rfl
  · rfl
  · rfl
  · rfl
  · exact hcode

theorem run_cons (kind : BlockKind) (s : Scanner) (n : Nat) (raw : Text) (raws : List Text) :
    s.run kind n (raw :: raws) =
      ((s.step kind raw 0).2.map (.onLine n)).toList ++
        (s.next kind raw).run kind (n + 1) raws := by
  rw [run, step_eq_onLine]

/-- **Further down the same is found**, further down. -/
theorem run_later (kind : BlockKind) (k : Nat) (raws : List Text) : ∀ (s : Scanner) (n : Nat),
    s.run kind (n + k) raws = (s.run kind n raws).map (.later k) := by
  induction raws with
  | nil => exact fun _ _ ↦ rfl
  | cons raw raws ih =>
    intro s n
    rw [run_cons, run_cons, Nat.add_right_comm, ih, List.map_append]
    cases (s.step kind raw 0).2 <;> rfl

/-- A block is found on one of the lines. -/
theorem line_of_mem_run {b : Block} (h : b ∈ s.run kind n raws) :
    n ≤ b.line ∧ b.line < n + raws.length := by
  induction raws generalizing s n with
  | nil => exact absurd h List.not_mem_nil
  | cons raw raws ih =>
    rw [run_cons, List.mem_append] at h
    rw [List.length_cons]
    rcases h with h | h
    · obtain ⟨b, -, rfl⟩ := Option.map_eq_some_iff.1 (Option.mem_toList.1 h)
      exact ⟨Nat.le_refl n, by simp only [Block.onLine]; omega⟩
    · have hlater := ih h
      omega

/-- Blocks are found in the order of their lines. -/
theorem pairwise_line_run (kind : BlockKind) (raws : List Text) : ∀ (s : Scanner) (n : Nat),
    (s.run kind n raws).Pairwise fun b b' ↦ b.line < b'.line := by
  induction raws with
  | nil => exact fun _ _ ↦ .nil
  | cons raw raws ih =>
    intro s n
    rw [run_cons, List.pairwise_append]
    refine ⟨?_, ih _ _, fun b hb b' hb' ↦ ?_⟩
    · cases (s.step kind raw 0).2 <;> simp
    · obtain ⟨b, -, rfl⟩ := Option.map_eq_some_iff.1 (Option.mem_toList.1 hb)
      exact (line_of_mem_run hb').1

/-! ## Going on -/

theorem after_cons (kind : BlockKind) (s : Scanner) (raw : Text) (raws : List Text) :
    s.after kind (raw :: raws) = (s.next kind raw).after kind raws := rfl

theorem after_append (kind : BlockKind) (s : Scanner) (raws more : List Text) :
    s.after kind (raws ++ more) = (s.after kind raws).after kind more :=
  List.foldl_append

/-- **A scanner goes on from where it stopped.** -/
theorem run_append (kind : BlockKind) (more raws : List Text) : ∀ (s : Scanner) (n : Nat),
    s.run kind n (raws ++ more) =
      s.run kind n raws ++ (s.after kind raws).run kind (n + raws.length) more := by
  induction raws with
  | nil => exact fun _ _ ↦ rfl
  | cons raw raws ih =>
    intro s n
    rw [List.cons_append, run_cons, run_cons, ih, after_cons, List.append_assoc,
      List.length_cons, Nat.add_assoc, Nat.add_comm 1]

/-- Whether a comment is open behind a line does not depend on the kind of declaration. -/
theorem inComment_next (kind : BlockKind) (s : Scanner) (raw : Text) :
    (s.next kind raw).inComment = (lineCode s.inComment raw).2 := by
  obtain ⟨doc, hstep⟩ := step_eq kind s raw 0
  rw [next, hstep]
  simp only
  split
  · rfl
  · exact code_inComment kind _ _ 0

theorem inComment_after (kind : BlockKind) (raws : List Text) : ∀ s : Scanner,
    (s.after kind raws).inComment = commentAfter s.inComment raws := by
  induction raws with
  | nil => exact fun _ ↦ rfl
  | cons raw raws ih =>
    intro s
    rw [after_cons, ih, inComment_next]
    rfl

/-- Two scanners that differ in the documentation comment only find the same declarations on the
same lines. -/
theorem run_found_congr (kind : BlockKind) (hpending : s.pending = s'.pending)
    (hcomment : s.inComment = s'.inComment) (n : Nat) (raws : List Text) :
    (s.run kind n raws).map Block.found = (s'.run kind n raws).map Block.found := by
  rw [run_found, run_found, hcomment, yetToFind, yetToFind, hpending]

/-- The parts of declarations do not even depend on the numbers of the lines. -/
theorem map_parts_run (kind : BlockKind) (hpending : s.pending = s'.pending)
    (hcomment : s.inComment = s'.inComment) (n n' : Nat) (raws : List Text) :
    (s.run kind n raws).map (·.parts) = (s'.run kind n' raws).map (·.parts) := by
  have hlater (s : Scanner) (n : Nat) :
      (s.run kind n raws).map (·.parts) = ((s.run kind 0 raws).map Block.found).map Prod.fst := by
    rw [← Nat.zero_add n, run_later, List.map_map, List.map_map]
    rfl
  rw [hlater, hlater, run_found_congr kind hpending hcomment]

/-! ## Lines without a declaration -/

/-- The scanner finds nothing in the lines, and remembers `s'` behind them. -/
structure PassesOver (kind : BlockKind) (s : Scanner) (raws : List Text) (s' : Scanner) :
    Prop where
  after : s.after kind raws = s'
  run : ∀ n, s.run kind n raws = []

theorem PassesOver.nil (kind : BlockKind) (s : Scanner) : PassesOver kind s [] s :=
  ⟨rfl, fun _ ↦ rfl⟩

theorem PassesOver.cons {raw : Text} (h : s.step kind raw 0 = (s', none)) {s'' : Scanner}
    (hmore : PassesOver kind s' raws s'') : PassesOver kind s (raw :: raws) s'' := by
  have hnext : s.next kind raw = s' := congrArg Prod.fst h
  constructor
  · rw [after_cons, hnext, hmore.after]
  · intro n
    rw [run_cons, hnext, hmore.run, h]
    rfl

end Scanner

end HeaderBindings
