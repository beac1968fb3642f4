import HeaderBindings.Text.Basic

/-!
# The lines of a header

Before any declaration is recognised, every line of a header is put into one of five classes by
its shape alone.  A documentation comment is recognised by how its lines begin at the left margin,
so an indented comment inside a declaration counts as code with a comment in it.
-/

set_option autoImplicit false

namespace HeaderBindings

/-- A line of a header by its shape. -/
inductive Line where
  /-- The first line of a documentation comment, with the text after the opening mark. -/
  | docStart (text : Text)
  /-- A further line of a documentation comment, with the text after its star. -/
  | docMore (text : Text)
  /-- A closing mark alone on its line. -/
  | docEnd
  /-- A preprocessor directive. -/
  | directive
  /-- Anything else, untouched. -/
  | code (text : Text)
deriving DecidableEq

/-- The class of a line. -/
def Line.classify (raw : Text) : Line :=
  match raw.afterLead? "/**" with
  | some rest => .docStart (rest.trimEnd)
  | none =>
  match raw.afterLead? " * " with
  | some rest => .docMore (rest.trimEnd)
  | none =>
  if raw.trimEnd = " *" then .docMore []
  else if raw.trim = "*/" then .docEnd
  else if raw.trimStart.startsWith "#" then .directive
  else .code raw

/-! ## Comments inside code

A line is searched for marks: for the closing mark where it begins inside a block comment, and
otherwise for the two opening marks.  What stands behind a comment is searched in the same way. -/

/-- What stands behind the block comment that a text begins in, if the comment ends in it; a text
that begins in none is what it is. -/
def behindComment? (inComment : Bool) (t : Text) : Option Text :=
  if inComment then (t.splitAtFirst? "*/").map Prod.snd else some t

/-- The code in front of the first comment, and what stands behind the opening mark of that comment
if it is a block comment.  Of the two opening marks the one further left counts. -/
def beforeFirstComment (t : Text) : Text × Option Text :=
  match t.splitAtFirst? "//", t.splitAtFirst? "/*" with
  | none, none => (t, none)
  | some (code, _), none => (code, none)
  | none, some (code, rest) => (code, some rest)
  | some (lineCode, _), some (code, rest) =>
    if lineCode.length < code.length then (lineCode, none) else (code, some rest)

theorem length_le_of_behindComment? {inComment : Bool} {t rest : Text}
    (h : behindComment? inComment t = some rest) : rest.length ≤ t.length := by
  cases inComment with
  | false => exact Nat.le_of_eq (congrArg List.length (Option.some.inj h).symm)
  | true =>
    obtain ⟨⟨before, after⟩, hsplit, rfl⟩ := Option.map_eq_some_iff.1 h
    rw [Text.splitAtFirst?_eq_some hsplit, List.length_append]
    exact Nat.le_add_left _ _

theorem length_lt_of_beforeFirstComment {t code rest : Text}
    (h : beforeFirstComment t = (code, some rest)) : rest.length < t.length := by
  have hblock {before after : Text} (hsplit : t.splitAtFirst? "/*" = some (before, after)) :
      after.length < t.length := by
    have hmark : ("/*" : Text).length = 2 := rfl
    rw [Text.splitAtFirst?_eq_some hsplit, List.length_append, List.length_append, hmark]
    omega
  unfold beforeFirstComment at h
  split at h
  · simp at h
  · simp at h
  · next hsplit =>
    cases h
    exact hblock hsplit
  · next hsplit =>
    split at h
    · simp at h
    · cases h
      exact hblock hsplit

/-- What is left of a line without its comments, and whether a block comment stays open after it.
A block comment leaves one blank behind, a line comment nothing. -/
def dropComments (inComment : Bool) (t : Text) : Text × Bool :=
  match _hbehind : behindComment? inComment t with
  | none => ([], true)
  | some inCode =>
    match _hbefore : beforeFirstComment inCode with
    | (code, none) => (code, false)
    | (code, some rest) =>
      let (more, stays) := dropComments true rest
      (code ++ ' ' :: more, stays)
termination_by t.length
decreasing_by
  exact Nat.lt_of_lt_of_le (length_lt_of_beforeFirstComment _hbefore)
    (length_le_of_behindComment? _hbehind)

/-- The code of a line: what is left without comments and outer blanks. -/
def codeOf (inComment : Bool) (raw : Text) : Text × Bool :=
  let (code, stays) := dropComments inComment raw
  (code.trim, stays)

end HeaderBindings
