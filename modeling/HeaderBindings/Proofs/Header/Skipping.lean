import HeaderBindings.Proofs.Header.Layout
import HeaderBindings.Proofs.Header.LineShapes
import HeaderBindings.Proofs.Header.Resuming

/-!
# Lines in which nothing is found

A scanner for one kind of declaration goes over the declarations of all other kinds as well.  It is
not put out by them if each of their lines is passed over, and it need not be followed through the
declarations of its own kind as long as they leave nothing open.

* `Scanner.Settled`: neither a declaration nor a comment is open.
* `Scanner.Quiet`: a settled scanner finds nothing in the lines and is settled behind them.  So it
  is with documentation (`Scanner.quiet_doc`), with directives (`Scanner.quiet_directive`) and with
  code that is ignored (`Scanner.quiet_row`).
* `Scanner.Settles`: a settled scanner is settled behind the lines, whatever it finds in them.  So
  it is with code whose last line closes a declaration (`Scanner.settles_rows`).
* `Scanner.map_parts_run_filter`: quiet lines may be left out from among lines that settle.
-/

set_option autoImplicit false

namespace HeaderBindings

namespace Scanner

variable {kind : BlockKind} {raw : Text} {raws more : List Text}

/-- Neither a declaration nor a comment is open. -/
def Settled (s : Scanner) : Prop := ∃ doc, s = ⟨doc, none, false⟩

theorem settled_start : start.Settled := ⟨[], rfl⟩

/-- Behind the lines a scanner is settled if it is in front of them. -/
def Settles (kind : BlockKind) (raws : List Text) : Prop :=
  ∀ s : Scanner, s.Settled → (s.after kind raws).Settled

/-- And it finds nothing in them. -/
def Quiet (kind : BlockKind) (raws : List Text) : Prop :=
  Settles kind raws ∧ ∀ (s : Scanner) (n : Nat), s.Settled → s.run kind n raws = []

theorem Settles.append (h : Settles kind raws) (h' : Settles kind more) :
    Settles kind (raws ++ more) := by
  intro s hs
  rw [after_append]
  exact h' _ (h s hs)

theorem Quiet.append (h : Quiet kind raws) (h' : Quiet kind more) : Quiet kind (raws ++ more) := by
  refine ⟨h.1.append h'.1, fun s n hs ↦ ?_⟩
  rw [run_append, h.2 s n hs, h'.2 _ _ (h.1 s hs), List.append_nil]

theorem quiet_of_forall (h : ∀ raw ∈ raws, Quiet kind [raw]) : Quiet kind raws := by
  induction raws with
  | nil => exact ⟨fun _ hs ↦ hs, fun _ _ _ ↦ rfl⟩
  | cons raw raws ih =>
    rw [List.forall_mem_cons] at h
    exact h.1.append (ih h.2)

theorem quiet_line (h : ∀ doc, ∃ doc',
    Scanner.step kind ⟨doc, none, false⟩ raw 0 = (⟨doc', none, false⟩, none)) :
    Quiet kind [raw] := by
  constructor
  · rintro _ ⟨doc, rfl⟩
    obtain ⟨doc', hstep⟩ := h doc
    exact ⟨doc', congrArg Prod.fst hstep⟩
  · rintro _ n ⟨doc, rfl⟩
    obtain ⟨doc', hstep⟩ := h doc
    rw [run_cons, hstep]
    rfl

/-- **A line of a documentation comment** is passed over. -/
theorem quiet_doc (kind : BlockKind) (h : (Line.classify raw).isDoc = true) : Quiet kind [raw] := by
  refine quiet_line fun doc ↦ ?_
  rw [step]
  cases hline : Line.classify raw with
  | docStart t => exact ⟨_, rfl⟩
  | docMore t => exact ⟨_, rfl⟩
  | docEnd => exact ⟨_, rfl⟩
  | directive | code t => exact absurd h (by simp [hline, Line.isDoc])

/-- **A directive** is passed over. -/
theorem quiet_directive (kind : BlockKind) (h : Line.classify raw = .directive) :
    Quiet kind [raw] := by
  refine quiet_line fun doc ↦ ⟨doc, ?_⟩
  rw [step, h]

/-- **A line of code** that is ignored is passed over. -/
theorem quiet_row {t : Text} (hcode : IsCode t) (indent : Indent) (h : kind.Ignores t) :
    Quiet kind [indent.1 ++ t] := by
  refine quiet_line fun doc ↦ ?_
  rw [step_row hcode indent kind rfl]
  cases hopens : kind.opens t with
  | false => exact ⟨[], by simp [code, hopens]⟩
  | true =>
    obtain ⟨hcloses, hparts⟩ := h.resolve_left (by simp [hopens])
    exact ⟨doc, by simp [code, hopens, hcloses, close, hparts]⟩

theorem settled_close (kind : BlockKind) {s : Scanner} (hs : s.inComment = false)
    (code : List Text) (n : Nat) : (s.close kind code n).1.Settled := by
  obtain ⟨doc, pending, inComment⟩ := s
  obtain rfl : inComment = false := hs
  rw [close]
  cases kind.parts? (Text.joinWith [' '] code.reverse) with
  | none => exact ⟨doc, rfl⟩
  | some parts => exact ⟨[], rfl⟩

/-- A line that closes a declaration leaves none open, whether there was one or not. -/
theorem settled_code {s : Scanner} (hs : s.inComment = false) {t : Text}
    (hcloses : kind.closes t = true) (n : Nat) : (s.code kind t n).1.Settled := by
  obtain ⟨doc, pending, inComment⟩ := s
  obtain rfl : inComment = false := hs
  cases pending with
  | some earlier => simpa [code, hcloses] using settled_close kind rfl _ n
  | none =>
    cases hopens : kind.opens t with
    | true => simpa [code, hopens, hcloses] using settled_close kind rfl _ n
    | false => exact ⟨[], by simp [code, hopens]⟩

theorem inComment_after_rows {rows : List (Indent × Text)} (hcode : ∀ row ∈ rows, IsCode row.2) :
    ∀ {s : Scanner}, s.inComment = false →
      (s.after kind (rows.map fun row ↦ row.1.1 ++ row.2)).inComment = false := by
  induction rows with
  | nil => exact fun hs ↦ hs
  | cons row rows ih =>
    intro s hs
    rw [List.forall_mem_cons] at hcode
    refine ih hcode.2 ?_
    rw [next, step_row hcode.1 row.1 kind hs, code_inComment, hs]

/-- **Code whose last line closes** leaves no declaration open, whatever the lines in front of it
do. -/
theorem settles_rows {inner : List (Indent × Text)} {last : Indent × Text}
    (hcode : ∀ row ∈ inner ++ [last], IsCode row.2) (hlast : kind.closes last.2 = true) :
    Settles kind ((inner ++ [last]).map fun row ↦ row.1.1 ++ row.2) := by
  rintro s ⟨doc, rfl⟩
  have hinner : ((⟨doc, none, false⟩ : Scanner).after kind
      (inner.map fun row ↦ row.1.1 ++ row.2)).inComment = false :=
    inComment_after_rows (fun row hrow ↦ hcode row (List.mem_append_left [last] hrow)) rfl
  rw [List.map_append, after_append, List.map_singleton, after_cons, next,
    step_row (hcode last (by simp)) last.1 kind hinner]
  exact settled_code hinner hlast 0

/-- **Between lines that settle** nothing is carried over, so in each of them is found what is found
there alone. -/
theorem map_parts_run_flatMap {α : Type} {raws : α → List Text} {ds : List α}
    (h : ∀ d ∈ ds, Settles kind (raws d)) : ∀ {s : Scanner} (n : Nat), s.Settled →
      (s.run kind n (ds.flatMap raws)).map (·.parts) =
        ds.flatMap fun d ↦ (start.run kind 1 (raws d)).map (·.parts) := by
  induction ds with
  | nil => exact fun _ _ ↦ rfl
  | cons d ds ih =>
    intro s n hs
    rw [List.forall_mem_cons] at h
    have hfirst : (s.run kind n (raws d)).map (·.parts) =
        (start.run kind 1 (raws d)).map (·.parts) := by
      obtain ⟨doc, rfl⟩ := hs
      exact map_parts_run kind (by rfl) (by rfl) n 1 (raws d)
    rw [List.flatMap_cons, run_append, List.map_append, hfirst, ih h.2 _ (h.1 s hs),
      List.flatMap_cons]

/-- **Lines in which nothing is found** may be left out. -/
theorem map_parts_run_filter {α : Type} {raws : α → List Text} {own : α → Bool} {ds : List α}
    (hown : ∀ d ∈ ds, own d = true → Settles kind (raws d))
    (hother : ∀ d ∈ ds, own d = false → Quiet kind (raws d)) {s s' : Scanner} (n n' : Nat)
    (hs : s.Settled) (hs' : s'.Settled) :
    (s.run kind n (ds.flatMap raws)).map (·.parts) =
      (s'.run kind n' ((ds.filter own).flatMap raws)).map (·.parts) := by
  rw [map_parts_run_flatMap (fun d hd ↦ ?_) n hs, map_parts_run_flatMap (fun d hd ↦ ?_) n' hs']
  · clear hown
    induction ds with
    | nil => rfl
    | cons d ds ih =>
      rw [List.forall_mem_cons] at hother
      rw [List.flatMap_cons, ih hother.2]
      cases hd : own d with
      | true => rw [List.filter_cons_of_pos hd, List.flatMap_cons]
      | false =>
        rw [List.filter_cons_of_neg (by simp [hd]), (hother.1 hd).2 start 1 settled_start]
        rfl
  · exact hown d (List.mem_of_mem_filter hd) (List.of_mem_filter hd)
  · cases hd' : own d with
    | true => exact hown d hd hd'
    | false => exact (hother d hd hd').1

/-! ### Declarations without comments -/

theorem doc_of_close {s : Scanner} (hs : s.doc = []) (code : List Text) (n : Nat) :
    (s.close kind code n).1.doc = [] ∧ ∀ b ∈ (s.close kind code n).2, b.doc = [] := by
  rw [close]
  cases kind.parts? (Text.joinWith [' '] code.reverse) with
  | none => exact ⟨hs, by simp⟩
  | some parts =>
    have hdoc : docText s.doc = [] := by rw [hs]; decide
    exact ⟨rfl, by simpa using hdoc⟩

theorem doc_of_code {s : Scanner} (hs : s.doc = []) (t : Text) (n : Nat) :
    (s.code kind t n).1.doc = [] ∧ ∀ b ∈ (s.code kind t n).2, b.doc = [] := by
  have hclose := @doc_of_close kind s hs
  rw [code]
  cases s.pending with
  | some earlier =>
    simp only
    split
    · exact hclose _ n
    · exact ⟨hs, by simp⟩
  | none =>
    simp only
    split
    · split
      · exact hclose _ n
      · exact ⟨hs, by simp⟩
    · exact ⟨rfl, by simp⟩

theorem doc_of_step {s : Scanner} (hs : s.doc = []) (h : (Line.classify raw).isDoc = false)
    (n : Nat) : (s.step kind raw n).1.doc = [] ∧ ∀ b ∈ (s.step kind raw n).2, b.doc = [] := by
  have hcode : (s.rawCode kind raw n).1.doc = [] ∧ ∀ b ∈ (s.rawCode kind raw n).2, b.doc = [] := by
    rw [rawCode]
    split
    simp only
    split
    · exact ⟨hs, by simp⟩
    · refine doc_of_code ?_ _ n
      exact hs
  rw [step]
  cases hline : Line.classify raw with
  | docStart t | docMore t | docEnd => exact absurd h (by simp [hline, Line.isDoc])
  | directive => exact ⟨hs, by simp⟩
  | code t => exact hcode

/-- **Where no line documents anything**, nothing is documented. -/
theorem doc_of_mem_run (hraws : ∀ raw ∈ raws, (Line.classify raw).isDoc = false) :
    ∀ {s : Scanner} {n : Nat}, s.doc = [] → ∀ b ∈ s.run kind n raws, b.doc = [] := by
  induction raws with
  | nil => exact fun _ b hb ↦ absurd hb List.not_mem_nil
  | cons raw raws ih =>
    intro s n hs b hb
    rw [List.forall_mem_cons] at hraws
    obtain ⟨hnext, hfound⟩ : (s.step kind raw n).1.doc = [] ∧
        ∀ b ∈ (s.step kind raw n).2, b.doc = [] := doc_of_step hs hraws.1 n
    rcases List.mem_append.1 hb with hb | hb
    · exact hfound b (Option.mem_toList.1 hb)
    · exact ih hraws.2 hnext b hb

end Scanner

end HeaderBindings
