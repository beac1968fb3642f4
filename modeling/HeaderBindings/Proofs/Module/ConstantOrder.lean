import Mathlib.Data.List.Forall2
import HeaderBindings.Proofs.Module.ConstantNames
import HeaderBindings.Proofs.Text.Lines
import HeaderBindings.Proofs.Text.Ordering

/-!
# How the constants of an enumeration are lined up

The class of an enumeration has its members in two places.  The table of names has a line for each
in the order of the header.  The constants behind the class are filled up with blanks, so that their
equals signs stand in one column, and only then sorted, as whole lines.

* `assignsAt_constantLine`: every line has its equals sign in the same column, since no name is
  longer than the width that names are filled up to.
* `compare_constantLine`: sorting the lines sorts the members by their names, and those of one name
  by the texts of their values.  A blank comes before all characters of a name, so the filling is no
  different from the end of the name.  Likewise the parenthesis behind a value comes before digits
  and the minus sign.
* `render_enum` puts both together.
-/

set_option autoImplicit false

namespace HeaderBindings

/-! ## Columns -/

theorem Text.length_le_byteCount (t : Text) : t.length ≤ t.byteCount := by
  induction t with
  | nil => exact Nat.le_refl 0
  | cons c t ih =>
    have hsize : 0 < c.utf8Size := c.utf8Size_pos
    rw [List.length_cons]
    change _ ≤ c.utf8Size + byteCount t
    omega

/-- Every name fits in the width that names are filled up to. -/
theorem length_le_nameWidth {values : List (Text × Int)} {v : Text × Int} (hv : v ∈ values) :
    v.1.length ≤ nameWidth values := by
  have hwidth : v.1.byteCount ≤ nameWidth values := by
    have hmem := List.mem_map_of_mem (f := fun v : Text × Int ↦ v.1.byteCount) hv
    rw [nameWidth, List.foldl_max]
    exact (List.le_max?_getD_of_mem hmem).trans (Nat.le_max_right _ _)
  exact v.1.length_le_byteCount.trans hwidth

/-- The line makes a member a constant of its class, with the equals sign behind `column`
characters. -/
def AssignsAt (cls : Text) (column : Nat) (value : Text × Int) (line : Text) : Prop :=
  ∃ before : Text, before.length = column ∧
    (∃ filling, before = cls ++ "." ++ value.1 ++ Text.spaces filling ++ " ") ∧
    line = before ++ "= " ++ cls ++ "(" ++ Text.ofInt value.2 ++ ")"

theorem assignsAt_constantLine (cls : Text) {values : List (Text × Int)} {v : Text × Int}
    (hv : v ∈ values) : AssignsAt cls (cls.length + nameWidth values + 2) v
      (constantLine cls (nameWidth values) v) := by
  have hwidth := length_le_nameWidth hv
  refine ⟨cls ++ "." ++ v.1 ++ Text.spaces (nameWidth values - v.1.length) ++ " ", ?_,
    ⟨_, rfl⟩, ?_⟩
  · simp only [Text.spaces, List.length_append, List.length_replicate]
    change cls.length + 1 + v.1.length + _ + 1 = _
    omega
  · simp [constantLine, Text.padTo]

/-! ## Order -/

theorem space_lt_of_isIdentifier {w : Text} (h : isIdentifier w = true) : ∀ c ∈ w, ' ' < c := by
  intro c hc
  have hlow := (toNat_of_isIdentChar (isIdentChar_of_mem h c hc)).1
  exact UInt32.lt_iff_toNat_lt.2 (Nat.lt_of_lt_of_le (by decide) hlow)

theorem Text.isDigit_or_eq_of_mem_ofInt {v : Int} :
    ∀ c ∈ Text.ofInt v, c.isDigit = true ∨ c = '-' := by
  intro c hc
  have hdigits {n : Nat} (h : c ∈ Text.ofNat n) : c.isDigit = true :=
    Nat.isDigit_of_mem_toDigits (by decide) (by decide) h
  cases v with
  | ofNat n => exact .inl (hdigits hc)
  | negSucc n => exact (List.mem_cons.1 hc).symm.imp_left hdigits

theorem parenthesis_lt_of_mem_ofInt {v : Int} : ∀ c ∈ Text.ofInt v, ')' < c := by
  intro c hc
  rcases Text.isDigit_or_eq_of_mem_ofInt c hc with hdigit | rfl
  · have hlow := (isDigit_iff.1 hdigit).1
    exact UInt32.lt_iff_toNat_lt.2 (Nat.lt_of_lt_of_le (by decide) hlow)
  · decide

/-- **Lines are in the order of names**, and lines for one name in that of the texts of values. -/
theorem compare_constantLine (cls : Text) (width : Nat) {a b : Text × Int}
    (ha : isIdentifier a.1 = true) (hb : isIdentifier b.1 = true) :
    compare (constantLine cls width a) (constantLine cls width b) =
      (compare a.1 b.1).then (compare (Text.ofInt a.2) (Text.ofInt b.2)) := by
  -- The filling and the blank in front of the equals sign, which there always is, are one text.
  have hspaces (n : Nat) : Text.spaces n ++ " " = ' ' :: Text.spaces n := by
    simp [Text.spaces, ← List.replicate_succ', List.replicate_succ]
  have hline (v : Text × Int) : constantLine cls width v =
      (cls ++ ".") ++ (v.1 ++ ' ' :: (Text.spaces (width - v.1.length) ++
        ("= " ++ cls ++ "(" ++ (Text.ofInt v.2 ++ ")")))) := by
    have hmore := congrArg (· ++ (("= " ++ cls ++ "(" ++ (Text.ofInt v.2 ++ ")") : Text)))
      (hspaces (width - v.1.length))
    simp only [List.append_assoc, List.cons_append] at hmore
    simp only [constantLine, Text.padTo, List.append_assoc]
    rw [← hmore]
    rfl
  rw [hline, hline, Text.compare_append_left,
    Text.compare_append_cons (space_lt_of_isIdentifier ha) (space_lt_of_isIdentifier hb)]
  cases hname : compare a.1 b.1 with
  | lt | gt => rfl
  | eq =>
    rw [Std.LawfulEqCmp.eq_of_compare hname, Text.compare_append_left, Text.compare_append_left]
    change compare (Text.ofInt a.2 ++ ')' :: []) (Text.ofInt b.2 ++ ')' :: []) = _
    rw [Text.compare_append_cons parenthesis_lt_of_mem_ofInt parenthesis_lt_of_mem_ofInt]
    exact Ordering.then_eq

/-- A constant may be assigned before another one: its name comes first, or they share a name and
the text of its value does not come later. -/
def InNameOrder (a b : Text × Int) : Prop :=
  compare a.1 b.1 = .lt ∨ a.1 = b.1 ∧ (compare (Text.ofInt a.2) (Text.ofInt b.2)).isLE = true

instance (a b : Text × Int) : Decidable (InNameOrder a b) :=
  inferInstanceAs (Decidable (_ ∨ _))

theorem pairwise_constantAssignments (cls : Text) {values : List (Text × Int)}
    (h : ∀ v ∈ values, isIdentifier v.1 = true) :
    (constantAssignments cls values).Pairwise InNameOrder := by
  have hperm := constantAssignments_perm cls values
  refine (Text.pairwise_mergeSort_compare _ values).imp_of_mem fun {a b} ha hb hle ↦ ?_
  rw [compare_constantLine cls _ (h a (hperm.mem_iff.1 ha)) (h b (hperm.mem_iff.1 hb)),
    Ordering.isLE_then_iff_or] at hle
  exact hle.imp_right (And.imp_left Std.LawfulEqCmp.eq_of_compare)

/-! ## The class and its constants -/

/-- The line of a member in the table of names, without its line end. -/
def tableLine (value : Text × Int) : Text :=
  "        " ++ Text.ofInt value.2 ++ ": '" ++ value.1 ++ "',"

theorem flatMap_nameEntry (values : List (Text × Int)) :
    values.flatMap nameEntry = Text.ofLines (values.map tableLine) := by
  have hend : ("',\n" : Text) = "'," ++ ['\n'] := by decide
  have hentry (v : Text × Int) : nameEntry v = tableLine v ++ ['\n'] := by
    unfold nameEntry tableLine
    rw [hend, ← List.append_assoc]
  rw [Text.ofLines, List.flatMap_map]
  exact congrArg (List.flatMap · values) (funext hentry)

/-- Each entry of the table is a line. -/
theorem lines_table {values : List (Text × Int)} (h : ∀ v ∈ values, isIdentifier v.1 = true) :
    (Text.ofLines (values.map tableLine)).lines = values.map tableLine := by
  refine Text.lines_ofLines (List.forall_mem_map.2 fun v hv ↦ ⟨?_, ?_⟩)
  · have hname : '\n' ∉ v.1 := notMem_of_isIdentifier (h v hv) (by decide)
    have hvalue : '\n' ∉ Text.ofInt v.2 := fun hmem ↦
      (Text.isDigit_or_eq_of_mem_ofInt _ hmem).elim (by decide) (by decide)
    unfold tableLine
    simp [hname, hvalue]
  · have hlast : (tableLine v).getLast? = some ',' := by
      unfold tableLine
      rw [List.getLast?_append]
      rfl
    rw [hlast]
    decide

/-- **The class of an enumeration and its constants.**  The table of names has one line for each
member, in order.  Behind it stands one line for each member that makes it a constant, sorted by the
names of the members, then by the texts of their values, with all equals signs in one column. -/
theorem render_enum (cls doc : Text) {values : List (Text × Int)}
    (h : ∀ v ∈ values, isIdentifier v.1 = true) :
    ∃ (sorted : List (Text × Int)) (lines : List Text) (column : Nat),
      (Node.enum cls doc values).render =
        "class " ++ cls ++ "(_Enum):\n    '''" ++ doc ++ "\n    '''\n    _enum_names_ = \x7b\n" ++
          Text.ofLines (values.map tableLine) ++ "    \x7d" ++
          (if values = [] then ([] : Text) else "\n\n" ++ Text.joinWith "\n" lines) ∧
      (Text.ofLines (values.map tableLine)).lines = values.map tableLine ∧
      sorted.Perm values ∧ sorted.Pairwise InNameOrder ∧
      List.Forall₂ (AssignsAt cls column) sorted lines := by
  refine ⟨constantAssignments cls values, constantLines cls values,
    cls.length + nameWidth values + 2, ?_, lines_table h, constantAssignments_perm cls values,
    pairwise_constantAssignments cls h, ?_⟩
  · change renderEnum cls doc values = _
    unfold renderEnum docstringLines
    rw [flatMap_nameEntry]
    simp [Text.spaces, List.isEmpty_iff]
  · rw [constantLines_eq, List.forall₂_map_right_iff, List.forall₂_same]
    intro v hv
    exact assignsAt_constantLine cls ((constantAssignments_perm cls values).mem_iff.1 hv)

/-- Three values for one name, which another name begins with. -/
def okValues : List (Text × Int) := [("OK", 10), ("OK_WIDE", 3), ("OK", 9), ("OK", -1)]

/-- The same values in the order in which the constants are assigned. -/
def okConstants : List (Text × Int) := [("OK", -1), ("OK", 10), ("OK", 9), ("OK_WIDE", 3)]

theorem render_enum_okValues : (∀ v ∈ okValues, isIdentifier v.1 = true) ∧
    ∃ (front : Text) (lines : List Text) (column : Nat),
      (Node.enum "Status" notAvailable okValues).render =
        front ++ "    \x7d" ++ ("\n\n" ++ Text.joinWith "\n" lines) ∧
      List.Forall₂ (AssignsAt "Status" column) okConstants lines := by
  have hnames : ∀ v ∈ okValues, isIdentifier v.1 = true := by decide
  obtain ⟨sorted, lines, column, hrender, -, hperm, horder, hlines⟩ :=
    render_enum "Status" notAvailable hnames
  have hsorted : sorted = okConstants := by
    have hconstants : sorted.Perm okConstants := hperm.trans (by decide)
    have hunique : ∀ a ∈ okConstants, ∀ b ∈ okConstants,
        InNameOrder a b → InNameOrder b a → a = b := by decide
    refine hconstants.eq_of_pairwise (fun a b ha hb ↦ ?_) horder (by decide)
    exact hunique a (hconstants.mem_iff.1 ha) b hb
  exact ⟨hnames, _, lines, column, hrender, hsorted ▸ hlines⟩

end HeaderBindings
