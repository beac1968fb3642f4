import HeaderBindings.Files.Tree
import HeaderBindings.Proofs.Text.Words
import Mathlib.Tactic.SplitIfs

/-!
# Storing a file

A text written to a path is stored at one location, and that is all that changes: what is stored at
any other location stays, the directories on the way included.  The path leads to the text then.

* `find?_ne_none_iff`: something is stored at a location if the way to the current directory or to
  an entry comes through it.
* `LeadsTo tree path front parent name`: the names in the path lead to a directory, but for the
  last, which a file can have there.  `exists_leadsTo_of_target` says so of a path that can be
  written to.
* `HasStored tree path t tree'`: the second tree is the first one, but for a text that the path
  leads to.  `hasStored_store` says so of a tree that a text is stored in.
-/

set_option autoImplicit false

namespace HeaderBindings.FileTree

variable {tree : FileTree} {place location : FileLocation} {path t : Text}

/-! ## What is stored where -/

/-- The location is on the way to the current directory or to an entry. -/
def IsOnTheWay (tree : FileTree) (location : FileLocation) : Prop :=
  location <+: tree.current ∨ ∃ e ∈ tree.entries, location <+: e.1

instance (tree : FileTree) (location : FileLocation) : Decidable (tree.IsOnTheWay location) :=
  inferInstanceAs (Decidable (_ ∨ ∃ e ∈ tree.entries, location <+: e.1))

theorem find?_eq : tree.find? location =
    ((tree.entries.find? fun e ↦ e.1 == location).map (·.2)).or
      (if tree.IsOnTheWay location then some .directory else none) := by
  rw [find?]
  cases tree.entries.find? fun e ↦ e.1 == location with
  | some e => rfl
  | none =>
    rw [Option.map_none, Option.none_or]
    refine ite_congr (propext ?_) (fun _ ↦ rfl) fun _ ↦ rfl
    simp only [Bool.or_eq_true, List.any_eq_true, List.isPrefixOf_iff_prefix, IsOnTheWay]

/-- Something is stored at the locations on the way to something, and nowhere else. -/
theorem find?_ne_none_iff : tree.find? location ≠ none ↔ tree.IsOnTheWay location := by
  rw [find?_eq]
  cases hfound : tree.entries.find? fun e ↦ e.1 == location with
  | some e =>
    refine iff_of_true (by simp) (Or.inr ⟨e, List.mem_of_find?_eq_some hfound, ?_⟩)
    obtain rfl : e.1 = location := by simpa using List.find?_some hfound
    exact List.prefix_refl _
  | none => simp

/-- The way to something comes through something. -/
theorem find?_ne_none_of_prefix {location' : FileLocation} (h : location <+: location')
    (hfound : tree.find? location' ≠ none) : tree.find? location ≠ none := by
  rw [find?_ne_none_iff] at hfound ⊢
  exact hfound.imp h.trans fun ⟨e, he, hway⟩ ↦ ⟨e, he, h.trans hway⟩

/-- The text is found where it is stored. -/
theorem find?_store_self : (tree.store place t).find? place = some (.text t) := by
  have hrest : (tree.entries.filter fun e ↦ e.1 != place).find? (fun e ↦ e.1 == place) = none := by
    simp [List.find?_eq_none]
  rw [find?, store, List.find?_append, hrest]
  simp

/-- Storing at a place that the way leads to opens no other way. -/
theorem isOnTheWay_store_iff (hway : ∀ l, l <+: place → l ≠ place → tree.IsOnTheWay l)
    (hne : location ≠ place) :
    (tree.store place t).IsOnTheWay location ↔ tree.IsOnTheWay location := by
  constructor
  · rintro (hcurrent | ⟨e, he, hstart⟩)
    · exact Or.inl hcurrent
    · rcases List.mem_append.1 he with hold | hnew
      · exact Or.inr ⟨e, (List.mem_filter.1 hold).1, hstart⟩
      · obtain rfl := List.mem_singleton.1 hnew
        exact hway location hstart hne
  · rintro (hcurrent | ⟨e, he, hstart⟩)
    · exact Or.inl hcurrent
    · by_cases hplace : e.1 = place
      · have hnew : (place, .text t) ∈ (tree.store place t).entries :=
          List.mem_append_right _ List.mem_cons_self
        exact Or.inr ⟨_, hnew, hplace ▸ hstart⟩
      · exact Or.inr ⟨e, List.mem_append_left _ (List.mem_filter.2 ⟨he, by simpa using hplace⟩),
          hstart⟩

/-- Everything else is found where it was, if the way to the place is there. -/
theorem find?_store_of_ne (hway : ∀ l, l <+: place → l ≠ place → tree.IsOnTheWay l)
    (hne : location ≠ place) : (tree.store place t).find? location = tree.find? location := by
  have hentries : (tree.store place t).entries.find? (fun e ↦ e.1 == location) =
      tree.entries.find? fun e ↦ e.1 == location := by
    have hnew : ([(place, .text t)] : List (FileLocation × FileEntry)).find?
        (fun e ↦ e.1 == location) = none := by
      simp [Ne.symm hne]
    rw [store, List.find?_append, hnew, Option.or_none, List.find?_filter]
    refine congrArg (tree.entries.find? ·) (funext fun e ↦ ?_)
    by_cases hlocation : e.1 = location
    · simp [hlocation, hne]
    · simp [hlocation]
  rw [find?_eq, find?_eq, hentries]
  simp only [isOnTheWay_store_iff hway hne]

/-! ## What a path names -/

/-- The names in a path lead to a directory, but for the last one, which a file can have there. -/
structure LeadsTo (tree : FileTree) (path : Text) (front : List Text) (parent : FileLocation)
    (name : Text) : Prop where
  fits : checkPath path = .ok ()
  names : path.splitOn '/' = front ++ [name]
  way : front.foldlM tree.enter (tree.startOf path) = .ok parent
  directory : tree.find? parent = some .directory
  name_ne : name ≠ [] ∧ name ≠ "." ∧ name ≠ ".."
  name_fits : name.byteCount ≤ maxNameBytes
  vacant : tree.find? (parent ++ [name]) ≠ some .directory

/-- A path that does not end in a slash is a name behind a way that does, or a name alone. -/
theorem exists_name (hne : path ≠ []) (hlast : path.getLast? ≠ some '/') :
    ∃ front name, name ≠ [] ∧ path.splitOn '/' = front ++ [name] ∧
      ((path.reverse.dropWhile (· == '/')).takeWhile (· != '/')).reverse = name ∧
      Text.splitOn ((path.reverse.dropWhile (· == '/')).dropWhile (· != '/')).reverse '/' =
        front ++ [[]] := by
  obtain ⟨c, rest, hreverse⟩ := List.exists_cons_of_ne_nil (mt List.reverse_eq_nil_iff.1 hne)
  have hc : c ≠ '/' := by
    rintro rfl
    exact hlast (by rw [List.getLast?_eq_head?_reverse, hreverse, List.head?_cons])
  have hdrop : path.reverse.dropWhile (· == '/') = path.reverse := by
    rw [hreverse, List.dropWhile_cons_of_neg (by simpa using hc)]
  rw [hdrop]
  have hname : '/' ∉ (path.reverse.takeWhile (· != '/')).reverse := fun hmem ↦ by
    simpa using List.all_eq_true.1 List.all_takeWhile _ (List.mem_reverse.1 hmem)
  have hne' : (path.reverse.takeWhile (· != '/')).reverse ≠ [] := by
    simp [hreverse, hc]
  have hpath : (path.reverse.dropWhile (· != '/')).reverse ++
      (path.reverse.takeWhile (· != '/')).reverse = path := by
    rw [← List.reverse_append, List.takeWhile_append_dropWhile, List.reverse_reverse]
  generalize (path.reverse.takeWhile (· != '/')).reverse = name at hname hne' hpath ⊢
  cases hway : path.reverse.dropWhile (· != '/') with
  | nil =>
    rw [hway, List.reverse_nil, List.nil_append] at hpath
    exact ⟨[], name, hne', hpath ▸ Text.splitOn_of_notMem hname, rfl, rfl⟩
  | cons d way =>
    obtain rfl : d = '/' := by
      have hd := List.head?_dropWhile_not (· != '/') path.reverse
      simpa [hway] using hd
    have hslash (b : Text) : Text.splitOn (way.reverse ++ '/' :: b) '/' =
        Text.splitOn way.reverse '/' ++ Text.splitOn b '/' :=
      Text.splitWhere_append_cons (by decide) b way.reverse
    rw [hway, List.reverse_cons, List.append_assoc, List.singleton_append] at hpath
    refine ⟨Text.splitOn way.reverse '/', name, hne', ?_, rfl, ?_⟩
    · rw [← hpath, hslash, Text.splitOn_of_notMem hname]
    · rw [List.reverse_cons, hslash]
      rfl

theorem bind_eq_ok_iff {ε α β : Type} {x : Except ε α} {f : α → Except ε β} {b : β} :
    x >>= f = .ok b ↔ ∃ a, x = .ok a ∧ f a = .ok b := by
  cases x <;> simp [bind, Except.bind]

/-- Behind a slash that ends it, a way leads to where it led before. -/
theorem foldlM_enter_of_append_nil {start parent : FileLocation} {front : List Text}
    (h : (front ++ [[]]).foldlM tree.enter start = .ok parent) :
    front.foldlM tree.enter start = .ok parent := by
  rw [List.foldlM_append] at h
  obtain ⟨before, hfront, hstep⟩ := bind_eq_ok_iff.1 h
  rw [List.foldlM_cons] at hstep
  obtain ⟨behind, henter, hbehind⟩ := bind_eq_ok_iff.1 hstep
  obtain rfl : behind = parent := by simpa [pure, Except.pure] using hbehind
  rw [enter] at henter
  split at henter
  · simp at henter
  · obtain rfl : before = behind := by simpa using henter
    exact hfront
  · simp at henter

/-- **A path that can be written to** leads to the place. -/
theorem exists_leadsTo_of_target (h : tree.target path = .ok place) :
    ∃ front parent name, tree.LeadsTo path front parent name ∧ place = parent ++ [name] := by
  obtain ⟨⟨⟩, hfits, h⟩ := bind_eq_ok_iff.1 h
  obtain ⟨parent, hway, h⟩ := bind_eq_ok_iff.1 h
  have hne : path ≠ [] := by
    rintro rfl
    simp [checkPath, Text.byteCount] at hfits
  split at h
  · simp at h
  · rename_i hdirectory
    split_ifs at h with hkind hlength hvacant
    simp only [not_or] at hkind
    obtain ⟨front, name, hname, hnames, hlast, hfront⟩ :=
      exists_name hne (by simpa using hkind.1)
    rw [hlast] at hkind hlength hvacant h
    rw [hfront] at hway
    exact ⟨front, parent, name,
      { fits := hfits
        names := hnames
        way := foldlM_enter_of_append_nil hway
        directory := hdirectory
        name_ne := ⟨hname, hkind.2⟩
        name_fits := Nat.not_lt.1 hlength
        vacant := hvacant },
      by simpa using h.symm⟩
  · simp at h

/-! ## Writing to a path -/

/-- A way leads to the same location wherever its directories are. -/
theorem foldlM_enter_mono {tree' : FileTree}
    (hdirectory : ∀ l, tree.find? l = some .directory → tree'.find? l = some .directory)
    {start parent : FileLocation} {names : List Text}
    (h : names.foldlM tree.enter start = .ok parent) :
    names.foldlM tree'.enter start = .ok parent := by
  induction names generalizing start with
  | nil => exact h
  | cons name names ih =>
    obtain ⟨next, henter, h⟩ := bind_eq_ok_iff.1 h
    refine bind_eq_ok_iff.2 ⟨next, ?_, ih h⟩
    rw [enter] at henter
    split at henter
    · simp at henter
    · rw [enter, hdirectory _ ‹_›]
      exact henter
    · simp at henter

namespace LeadsTo

variable {front : List Text} {parent : FileLocation} {name : Text}

/-- The way to the place is there. -/
theorem isOnTheWay (h : tree.LeadsTo path front parent name) (l : FileLocation)
    (hstart : l <+: parent ++ [name]) (hne : l ≠ parent ++ [name]) : tree.IsOnTheWay l := by
  rw [← find?_ne_none_iff]
  exact find?_ne_none_of_prefix ((List.prefix_concat_iff.1 hstart).resolve_left hne)
    (by simp [h.directory])

/-- Every directory is one still. -/
theorem find?_store_directory (h : tree.LeadsTo path front parent name) {l : FileLocation}
    (hl : tree.find? l = some .directory) :
    (tree.store (parent ++ [name]) t).find? l = some .directory := by
  rw [find?_store_of_ne h.isOnTheWay, hl]
  rintro rfl
  exact h.vacant hl

/-- The path leads to the text. -/
theorem follow_store (h : tree.LeadsTo path front parent name) :
    (tree.store (parent ++ [name]) t).follow path = .ok (parent ++ [name], .text t) := by
  have henter : (tree.store (parent ++ [name]) t).enter parent name = .ok (parent ++ [name]) := by
    rw [enter, h.find?_store_directory h.directory]
    obtain ⟨hempty, hdot, hdots⟩ := h.name_ne
    exact ((if_neg (not_or.2 ⟨hempty, hdot⟩)).trans (if_neg hdots)).trans
      (if_neg (Nat.not_lt.2 h.name_fits))
  have hway : (path.splitOn '/').foldlM (tree.store (parent ++ [name]) t).enter
      (tree.startOf path) = .ok (parent ++ [name]) := by
    rw [h.names, List.foldlM_append]
    refine bind_eq_ok_iff.2 ⟨parent, foldlM_enter_mono (fun l ↦ h.find?_store_directory) h.way, ?_⟩
    simp [henter]
  refine bind_eq_ok_iff.2 ⟨_, h.fits, bind_eq_ok_iff.2 ⟨_, hway, ?_⟩⟩
  simp [find?_store_self]

end LeadsTo

/-- The path leads to the text, and everything else is as it was. -/
structure HasStored (tree : FileTree) (path t : Text) (tree' : FileTree) : Prop where
  read : tree'.readText path = .ok t
  place : ∃ place, tree.target path = .ok place ∧ tree'.find? place = some (.text t) ∧
    ∀ l, l ≠ place → tree'.find? l = tree.find? l
  current : tree'.current = tree.current
  printed : tree'.printed = tree.printed

/-- **Storing changes one file.**  The text is what is read at its path, and nothing else in the
tree is different. -/
theorem hasStored_store (h : tree.target path = .ok place) :
    tree.HasStored path t (tree.store place t) := by
  obtain ⟨front, parent, name, hleads, rfl⟩ := exists_leadsTo_of_target h
  exact
    { read := bind_eq_ok_iff.2 ⟨_, hleads.follow_store, rfl⟩
      place := ⟨_, h, find?_store_self, fun _ hne ↦ find?_store_of_ne hleads.isOnTheWay hne⟩
      current := rfl
      printed := rfl }

end HeaderBindings.FileTree
