import HeaderBindings.Text.Basic

/-!
# Patterns

A declaration of a header is recognised by a pattern: a description of text with groups whose
matched pieces are the parts of the declaration.  Repetition applies to single characters only,
which is all that the grammar of headers needs.

**Which match is found** is part of the meaning.  A choice prefers its left side, a repetition
runs as long as it can, or as short as it can if it is written lazily, and a later part that
fails makes an earlier one try its next preference.  `Pattern.run` says this directly: it offers
the ways a pattern can match, in order of preference, to a continuation that accepts or rejects
them.

**How it is found** is another matter.  Trying one preference after the other takes a time that
grows with a power of the length of the text.  But the best way through the rest of a pattern
depends on the place alone, so `Pattern.ways` works it out for every place at once, from the last
part of the pattern to the first and from the last place to the first, in one pass over the places
for each part.  `ways_map` says that this is the same way, and `search_eq` that a search finds the
match that `run` means.
-/

set_option autoImplicit false

namespace HeaderBindings

/-! ## Places -/

/-- A place in a text: how many characters come before it, the last one of these, if any, and the
text after it. -/
structure Cursor where
  offset : Nat
  prev : Option Char
  rest : Text

namespace Cursor

/-- The text between two places of the same text. -/
def textTo (a b : Cursor) : Text := a.rest.take (b.offset - a.offset)

/-- The place lies between a word character and something else. -/
def atWordBoundary (c : Cursor) : Bool :=
  c.prev.any isWordChar != c.rest.head?.any isWordChar

/-- The place behind the given text, if that comes next. -/
def behind? (c : Cursor) : Text → Option Cursor
  | [] => some c
  | a :: t =>
    match c.rest with
    | x :: rest => if x = a then behind? ⟨c.offset + 1, some x, rest⟩ t else none
    | [] => none

/-- The place given by its parts and all places after it, of which the last one is the end of the
text. -/
def placesFrom (offset : Nat) (prev : Option Char) : Text → List Cursor
  | [] => [⟨offset, prev, []⟩]
  | c :: t => ⟨offset, prev, c :: t⟩ :: placesFrom (offset + 1) (some c) t

/-- All places of a text. -/
def places (t : Text) : List Cursor := placesFrom 0 none t

end Cursor

/-! ## Matches -/

/-- Where a group of a pattern begins or ends. -/
inductive Mark where
  | opening (index : Nat)
  | closing (index : Nat)
deriving DecidableEq

/-- A match: the marks of its groups from left to right, and the place where it ends. -/
structure Match where
  marks : List (Mark × Cursor)
  stop : Cursor

namespace Match

/-- The match of nothing at a place. -/
def empty (c : Cursor) : Match := ⟨[], c⟩

/-- The match with one more mark at a place in front of it. -/
def mark (m : Mark) (c : Cursor) (rest : Match) : Match := ⟨(m, c) :: rest.marks, rest.stop⟩

/-- The place of a mark. -/
def place? (g : Match) (m : Mark) : Option Cursor :=
  (g.marks.find? fun entry ↦ entry.1 == m).map (·.2)

/-- The text of group `i`, if that group took part in the match. -/
def get? (g : Match) (i : Nat) : Option Text :=
  match g.place? (.opening i), g.place? (.closing i) with
  | some a, some b => some (a.textTo b)
  | _, _ => none

/-- The text of group `i`, empty if that group took no part in the match. -/
def get (g : Match) (i : Nat) : Text := (g.get? i).getD []

end Match

/-! ## Patterns and what they match -/

/-- A description of text. -/
inductive Pattern where
  /-- No text, at a place that satisfies a test. -/
  | place (test : Cursor → Bool)
  /-- Exactly the given text. -/
  | text (t : Text)
  /-- One character that satisfies a test. -/
  | one (test : Char → Bool)
  /-- Any number of characters that satisfy a test, as many as possible if `greedy`. -/
  | many (greedy : Bool) (test : Char → Bool)
  /-- One pattern after the other. -/
  | seq (first second : Pattern)
  /-- The left pattern or else the right one. -/
  | either (left right : Pattern)
  /-- A pattern whose text is kept under a number. -/
  | group (index : Nat) (inner : Pattern)

namespace Pattern

/-- The better of two ways to go on with a repetition: the longer one if it is greedy. -/
def prefer (greedy : Bool) (longer shorter : Option Match) : Option Match :=
  if greedy then longer.or shorter else shorter.or longer

/-- The ways to repeat a character test at a place, offered to `k` in order of preference. -/
def runMany (greedy : Bool) (test : Char → Bool) (k : Cursor → Option Match) :
    Nat → Option Char → Text → Option Match
  | offset, prev, [] => k ⟨offset, prev, []⟩
  | offset, prev, c :: t =>
    prefer greedy
      (if test c then runMany greedy test k (offset + 1) (some c) t else none)
      (k ⟨offset, prev, c :: t⟩)

/-- The ways a pattern matches at a place, offered to `k` in order of preference: the result is
the first one that `k` accepts. -/
def run : Pattern → (Cursor → Option Match) → Cursor → Option Match
  | place test, k, c => if test c then k c else none
  | text t, k, c => (c.behind? t).bind k
  | one test, k, c =>
    match c.rest with
    | x :: rest => if test x then k ⟨c.offset + 1, some x, rest⟩ else none
    | [] => none
  | many greedy test, k, c => runMany greedy test k c.offset c.prev c.rest
  | seq p q, k, c => p.run (q.run k) c
  | either p q, k, c => (p.run k c).or (q.run k c)
  | group i p, k, c =>
    (p.run (fun c' ↦ (k c').map (.mark (.closing i) c')) c).map (.mark (.opening i) c)

/-- The preferred match at a place. -/
def matchAt (p : Pattern) (c : Cursor) : Option Match := p.run (fun c' ↦ some (.empty c')) c

/-! ## Matching at all places at once -/

/-- The entries that `f` makes of each place and of the given entries from that place on. -/
def tabulate (f : Cursor → List (Option Match) → Option Match) :
    List Cursor → List (Option Match) → List (Option Match)
  | c :: cs, k :: ks => f c (k :: ks) :: tabulate f cs ks
  | _, _ => []

/-- The entry so many places on. -/
def entry (ks : List (Option Match)) (n : Nat) : Option Match := (ks[n]?).join

/-- The entries for a repetition that the given entries follow. -/
def tabulateMany (greedy : Bool) (test : Char → Bool) :
    List Cursor → List (Option Match) → List (Option Match)
  | c :: cs, k :: ks =>
    let later := tabulateMany greedy test cs ks
    prefer greedy (if c.rest.head?.any test then entry later 0 else none) k :: later
  | _, _ => []

/-- The best way from each of the places through a pattern and on, when the given entries are the
best ways to go on. -/
def ways : Pattern → List Cursor → List (Option Match) → List (Option Match)
  | place test => tabulate fun c ks ↦ if test c then entry ks 0 else none
  | text t => tabulate fun c ks ↦ if c.rest.startsWith t then entry ks t.length else none
  | one test => tabulate fun c ks ↦ if c.rest.head?.any test then entry ks 1 else none
  | many greedy test => tabulateMany greedy test
  | seq p q => fun cs ks ↦ p.ways cs (q.ways cs ks)
  | either p q => fun cs ks ↦ (p.ways cs ks).zipWith Option.or (q.ways cs ks)
  | group i p => fun cs ks ↦
    tabulate (fun c ks ↦ (entry ks 0).map (.mark (.opening i) c)) cs
      (p.ways cs (tabulate (fun c ks ↦ (entry ks 0).map (.mark (.closing i) c)) cs ks))

section

variable {k g : Cursor → Option Match}

/-- The first entry of a table is the one for its first place. -/
theorem entry_zero_places (n : Nat) (x : Option Char) (t : Text) :
    entry ((Cursor.placesFrom n x t).map k) 0 = k ⟨n, x, t⟩ := by
  cases t <;> simp [entry, Cursor.placesFrom]

/-- A table over the places of a text is known if each entry is. -/
theorem tabulate_places {f : Cursor → List (Option Match) → Option Match}
    (h : ∀ n x t, f ⟨n, x, t⟩ ((Cursor.placesFrom n x t).map k) = g ⟨n, x, t⟩) (t : Text) :
    ∀ n x, tabulate f (Cursor.placesFrom n x t) ((Cursor.placesFrom n x t).map k) =
      (Cursor.placesFrom n x t).map g := by
  induction t with
  | nil => intro n x; simpa [Cursor.placesFrom, tabulate] using h n x []
  | cons c t ih =>
    intro n x
    have hc := h n x (c :: t)
    simp only [Cursor.placesFrom, List.map_cons, tabulate, List.cons.injEq] at hc ⊢
    exact ⟨hc, ih _ _⟩

/-- The entry behind a text that comes next is the one for the place behind it. -/
theorem entry_behind (s : Text) : ∀ n x (t : Text),
    (if t.startsWith s then entry ((Cursor.placesFrom n x t).map k) s.length else none) =
      ((Cursor.mk n x t).behind? s).bind k := by
  induction s with
  | nil => intro n x t; simp [Cursor.behind?, Text.startsWith, Text.afterLead?, entry_zero_places]
  | cons a s ih =>
    intro n x t
    cases t with
    | nil => simp [Cursor.behind?, Text.startsWith, Text.afterLead?]
    | cons c t =>
      by_cases hc : c = a
      · simpa [Cursor.behind?, Text.startsWith, Text.afterLead?, hc, Cursor.placesFrom, entry]
          using ih (n + 1) (some c) t
      · simp [Cursor.behind?, Text.startsWith, Text.afterLead?, hc]

/-- The entries for a repetition. -/
theorem tabulateMany_places (greedy : Bool) (test : Char → Bool) (t : Text) : ∀ n x,
    tabulateMany greedy test (Cursor.placesFrom n x t) ((Cursor.placesFrom n x t).map k) =
      (Cursor.placesFrom n x t).map ((many greedy test).run k) := by
  induction t with
  | nil =>
    intro n x
    cases greedy <;> simp [Cursor.placesFrom, tabulateMany, run, runMany, prefer]
  | cons c t ih =>
    intro n x
    simp only [Cursor.placesFrom, List.map_cons, tabulateMany, ih, entry_zero_places]
    rfl

/-- Working out the ways from all places at once gives the way from each place. -/
theorem ways_map (p : Pattern) : ∀ (k : Cursor → Option Match) (n : Nat) (x : Option Char)
    (t : Text), p.ways (Cursor.placesFrom n x t) ((Cursor.placesFrom n x t).map k) =
      (Cursor.placesFrom n x t).map (p.run k) := by
  induction p with
  | place test =>
    intro k n x t
    exact tabulate_places (fun n x t ↦ by simp [run, entry_zero_places]) t n x
  | text s => intro k n x t; exact tabulate_places (fun n x t ↦ entry_behind s n x t) t n x
  | one test =>
    intro k n x t
    refine tabulate_places (fun n x t ↦ ?_) t n x
    cases t with
    | nil => simp [run]
    | cons c t =>
      have := entry_zero_places (k := k) (n + 1) (some c) t
      simp_all [run, entry, Cursor.placesFrom]
  | many greedy test => intro k n x t; exact tabulateMany_places greedy test t n x
  | seq p q ihp ihq => intro k n x t; simp only [ways, ihq, ihp, run]
  | either p q ihp ihq =>
    intro k n x t
    simp [ways, ihp, ihq, List.zipWith_map, run]
  | group i p ih =>
    intro k n x t
    simp only [ways]
    rw [tabulate_places (g := fun c ↦ (k c).map (.mark (.closing i) c)), ih,
      tabulate_places (g := (group i p).run k)]
    · intro n x t; simp [entry_zero_places, run]
    · intro n x t; simp [entry_zero_places]

end

/-! ## Searching -/

/-- All places of a text, each with the preferred match there. -/
def chart (p : Pattern) (t : Text) : List (Cursor × Option Match) :=
  let cs := Cursor.places t
  cs.zip (p.ways cs (cs.map fun c ↦ some (.empty c)))

/-- The chart shows the preferred match at every place. -/
theorem chart_eq (p : Pattern) (t : Text) :
    p.chart t = (Cursor.places t).map fun c ↦ (c, p.matchAt c) := by
  simp only [chart, Cursor.places, ways_map, List.zip_map_right]
  simp [List.zip_eq_zipWith, matchAt]

/-- The first match anywhere in the text. -/
def search (p : Pattern) (t : Text) : Option Match := (p.chart t).findSome? (·.2)

/-- The match found is the preferred one at the first place that has any. -/
theorem search_eq (p : Pattern) (t : Text) :
    p.search t = (Cursor.places t).findSome? p.matchAt := by
  simp [search, chart_eq, List.findSome?_map, Function.comp_def]

/-- The pattern matches somewhere in the text. -/
def occursIn (p : Pattern) (t : Text) : Bool := (p.search t).isSome

/-- The entries of a chart for the places that no earlier match reaches over, when the last match
still covers `skip` places.  A match of no text covers its own place alone. -/
def uncovered : Nat → List (Cursor × Option Match) → List (Cursor × Option Match)
  | _, [] => []
  | skip + 1, _ :: chart => uncovered skip chart
  | 0, (c, m) :: chart =>
    (c, m) :: uncovered (m.elim 0 fun m ↦ m.stop.offset - c.offset - 1) chart

/-- The characters that remain of the place of an entry: none if a match of some text begins
there. -/
def remainder (entry : Cursor × Option Match) : Text :=
  if entry.2.any fun m ↦ entry.1.offset < m.stop.offset then [] else entry.1.rest.take 1

/-- The text without the matches of the pattern, found from the left and without overlaps. -/
def removeAll (p : Pattern) (t : Text) : Text := (uncovered 0 (p.chart t)).flatMap remainder

/-- Every match of the pattern, found from the left and without overlaps. -/
def collect (p : Pattern) (t : Text) : List Match := (uncovered 0 (p.chart t)).filterMap (·.2)

/-! ## Building patterns -/

/-- No text, at the start of the whole text. -/
def textStart : Pattern := place fun c ↦ c.prev.isNone

/-- No text, at the start of a line. -/
def lineStart : Pattern := place fun c ↦ c.prev.all (· == '\n')

/-- No text, at the end of the whole text. -/
def textEnd : Pattern := place fun c ↦ c.rest.isEmpty

/-- No text, between a word character and something else. -/
def wordBoundary : Pattern := place Cursor.atWordBoundary

/-- One pattern after the other. -/
instance : Append Pattern := ⟨seq⟩

/-- A string literal is the pattern of exactly that text. -/
instance : Coe String Pattern := ⟨fun s ↦ text s.toList⟩

/-- The pattern, or nothing. -/
def optional (p : Pattern) : Pattern := either p (text [])

/-- At least one character that satisfies the test, as many as possible. -/
def some₁ (test : Char → Bool) : Pattern := seq (one test) (many true test)

/-- At least one character that satisfies the test, as few as possible. -/
def lazySome (test : Char → Bool) : Pattern := seq (one test) (many false test)

/-- Any character but a line feed. -/
def notLineFeed (c : Char) : Bool := c != '\n'

/-- Blanks, or none. -/
def blanks : Pattern := many true isBlank

/-- At least one blank. -/
def blanks₁ : Pattern := some₁ isBlank

/-- A word, or nothing. -/
def word : Pattern := many true isWordChar

/-- A word of at least one character. -/
def word₁ : Pattern := some₁ isWordChar

/-- The rest of a line, as much of it as possible. -/
def anything : Pattern := many true notLineFeed

/-- At least one character of a line, as few as possible. -/
def lazyAnything₁ : Pattern := lazySome notLineFeed

end Pattern

end HeaderBindings
