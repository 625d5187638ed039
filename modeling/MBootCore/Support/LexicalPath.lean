import Mathlib.Data.List.Basic

/-!
# Support — LexicalPath

Paths as texts, read component by component: an empty component and `.` stay
where they are, `..` goes up, any other name goes down. A place is the list of
names that leads to it from the root; nothing is above the root.
-/

namespace LexicalPath

/-- The names from the root to a place. -/
abbrev Place := List String

def enter (dir : Place) (name : String) : Place :=
  if name = "" ∨ name = "." then dir
  else if name = ".." then dir.dropLast
  else dir ++ [name]

def walk (dir : Place) (names : List String) : Place := names.foldl enter dir

/-- The places a walk comes to, the last one included. -/
def trail (dir : Place) : List String → List Place
  | [] => []
  | name :: names => enter dir name :: trail (enter dir name) names

def isAbsolute (path : String) : Bool := path.toList.head? == some '/'

def components (path : String) : List String := (path.toList.splitOn '/').map String.ofList

def endsWithSlash (path : String) : Bool := path.toList.getLast? == some '/'

/-- The path of `b` seen from `a`: `b` itself if it is absolute. -/
def join (a b : String) : String :=
  if isAbsolute b then b
  else if a.isEmpty || endsWithSlash a then a ++ b
  else a ++ "/" ++ b

/-- Where the walk along a path begins. -/
def start (cwd : Place) (path : String) : Place := if isAbsolute path then [] else cwd

def resolve (cwd : Place) (path : String) : Place := walk (start cwd path) (components path)

/-- Strictly below a directory. -/
def Below (base place : Place) : Prop := base <+: place ∧ place ≠ base

instance (base place : Place) : Decidable (Below base place) := inferInstanceAs (Decidable (_ ∧ _))

/-- A name that goes down. -/
def IsName (name : String) : Prop := name ≠ "" ∧ name ≠ "." ∧ name ≠ ".."

instance (name : String) : Decidable (IsName name) := inferInstanceAs (Decidable (_ ∧ _))

/-! ## Walks -/

variable {base dir place : Place} {name : String} {names : List String}

@[simp] theorem walk_nil (dir : Place) : walk dir [] = dir := rfl

@[simp] theorem walk_cons (dir : Place) (name : String) (names : List String) :
    walk dir (name :: names) = walk (enter dir name) names := rfl

theorem walk_append (dir : Place) (names names' : List String) :
    walk dir (names ++ names') = walk (walk dir names) names' := List.foldl_append

@[simp] theorem trail_nil (dir : Place) : trail dir [] = [] := rfl

@[simp] theorem trail_cons (dir : Place) (name : String) (names : List String) :
    trail dir (name :: names) = enter dir name :: trail (enter dir name) names := rfl

theorem trail_append (dir : Place) (names names' : List String) :
    trail dir (names ++ names') = trail dir names ++ trail (walk dir names) names' := by
  induction names generalizing dir with
  | nil => rfl
  | cons name names ih => simp [ih]

theorem walk_mem_trail (h : names ≠ []) (dir : Place) : walk dir names ∈ trail dir names := by
  induction names generalizing dir with
  | nil => exact absurd rfl h
  | cons name names ih =>
    rw [walk_cons, trail_cons]
    by_cases hnames : names = []
    · simp [hnames]
    · exact List.mem_cons_of_mem _ (ih hnames _)

@[simp] theorem enter_empty (dir : Place) : enter dir "" = dir := rfl

theorem enter_name (h : IsName name) : enter dir name = dir ++ [name] := by
  simp [enter, h.1, h.2.1, h.2.2]

theorem walk_names (h : ∀ name ∈ names, IsName name) (dir : Place) :
    walk dir names = dir ++ names := by
  induction names generalizing dir with
  | nil => simp
  | cons name names ih =>
    rw [walk_cons, enter_name (h name (by simp)), ih fun n hn => h n (by simp [hn])]
    simp

theorem prefix_trail_names (h : ∀ name ∈ names, IsName name) (hplace : place ∈ trail dir names) :
    Below dir place := by
  induction names generalizing dir with
  | nil => cases hplace
  | cons name names ih =>
    rw [trail_cons, enter_name (h name (by simp))] at hplace
    have hdown : Below dir (dir ++ [name]) := ⟨List.prefix_append _ _, by simp⟩
    rcases List.mem_cons.mp hplace with rfl | hrest
    · exact hdown
    · have hbelow := ih (fun n hn => h n (by simp [hn])) hrest
      refine ⟨hdown.1.trans hbelow.1, ?_⟩
      rintro rfl
      have hlength := hbelow.1.length_le
      rw [List.length_append, List.length_singleton] at hlength
      omega

theorem Below.append (h : Below base place) (rest : List String) : Below base (place ++ rest) := by
  refine ⟨h.1.trans (List.prefix_append _ _), fun heq => h.2 ?_⟩
  have hlength := congrArg List.length heq
  have hle := h.1.length_le
  simp only [List.length_append] at hlength
  exact (List.IsPrefix.eq_of_length h.1 (by omega)).symm

/-! ## Joined paths -/

theorem components_slash (a b : List Char) :
    components (String.ofList (a ++ '/' :: b))
      = components (String.ofList a) ++ components (String.ofList b) := by
  simp [components, List.splitOn_append_cons_self]

theorem isAbsolute_join {a b : String} (ha : a ≠ "") (hb : isAbsolute b = false) :
    isAbsolute (join a b) = isAbsolute a := by
  have hne : a.toList ≠ [] := by simpa using ha
  have hhead : ∀ rest : List Char, (a.toList ++ rest).head? = a.toList.head? := by
    intro rest
    cases hlist : a.toList with
    | nil => exact absurd hlist hne
    | cons c cs => rfl
  rw [join, hb, if_neg Bool.false_ne_true]
  split
  · simp [isAbsolute, hhead]
  · simp only [isAbsolute, String.toList_append, List.append_assoc, hhead]

/-- The components of a joined path are those of its parts, but for an empty one
where the first part ends with a slash. -/
theorem components_join {a b : String} (ha : a ≠ "") (hb : isAbsolute b = false) :
    ∃ names, components (join a b) = names ++ components b ∧
      (components a = names ∨ components a = names ++ [""]) := by
  have hempty : a.isEmpty = false := by simpa using ha
  rw [join, hb, hempty, if_neg Bool.false_ne_true, Bool.false_or]
  split
  · rename_i hslash
    rw [endsWithSlash, beq_iff_eq] at hslash
    obtain ⟨chars, hchars⟩ := List.getLast?_eq_some_iff.mp hslash
    have hsplit : a = String.ofList (chars ++ '/' :: []) := by rw [← hchars, String.ofList_toList]
    have hjoined : a ++ b = String.ofList (chars ++ '/' :: b.toList) := by
      rw [← String.toList_inj]
      simp [hchars]
    refine ⟨components (String.ofList chars), ?_, .inr ?_⟩
    · rw [hjoined, components_slash, String.ofList_toList]
    · rw [hsplit, components_slash]
      rfl
  · refine ⟨components a, ?_, .inl rfl⟩
    have hjoined : a ++ "/" ++ b = String.ofList (a.toList ++ '/' :: b.toList) := by
      rw [← String.toList_inj]
      simp
    rw [hjoined, components_slash, String.ofList_toList, String.ofList_toList]

theorem walk_components_join {a b : String} (ha : a ≠ "") (hb : isAbsolute b = false)
    (dir : Place) :
    walk dir (components (join a b)) = walk (walk dir (components a)) (components b) := by
  obtain ⟨names, hnames, h | h⟩ := components_join ha hb
  · rw [hnames, h, walk_append]
  · rw [hnames, h, walk_append, walk_append]
    rfl

theorem trail_components_join {a b : String} (ha : a ≠ "") (hb : isAbsolute b = false)
    (h : place ∈ trail dir (components (join a b))) :
    place ∈ trail dir (components a) ∨ place ∈ trail (walk dir (components a)) (components b) := by
  obtain ⟨names, hnames, ha' | ha'⟩ := components_join ha hb
  · rw [hnames, trail_append, List.mem_append] at h
    rwa [ha']
  · rw [hnames, trail_append, List.mem_append] at h
    rw [ha', trail_append, walk_append]
    exact h.imp (List.mem_append_left _) id

theorem resolve_join {a b : String} (ha : a ≠ "") (hb : isAbsolute b = false) (cwd : Place) :
    resolve cwd (join a b) = walk (resolve cwd a) (components b) := by
  rw [resolve, start, isAbsolute_join ha hb, walk_components_join ha hb]
  rfl

theorem join_absolute {a b : String} (hb : isAbsolute b = true) : join a b = b := by
  rw [join, if_pos hb]

/-! ## Walks that stay below -/

/-- The names a walk ends at below its first directory, if it never goes up from
that directory. -/
def descent (stack : List String) : List String → Option (List String)
  | [] => some stack
  | name :: names =>
    if name = "" ∨ name = "." then descent stack names
    else if name = ".." then if stack = [] then none else descent stack.dropLast names
    else descent (stack ++ [name]) names

/-- A relative path that ends strictly below where it begins, and does not leave
that place on the way. -/
def descends (path : String) : Bool :=
  !isAbsolute path &&
    match descent [] (components path) with
    | some (_ :: _) => true
    | _ => false

theorem enter_of_descent {stack rest : List String} (h : descent stack (name :: names) = some rest)
    (base : Place) :
    ∃ stack', enter (base ++ stack) name = base ++ stack' ∧ descent stack' names = some rest := by
  rw [descent] at h
  split_ifs at h with hstay hup hroot
  · exact ⟨stack, by rw [enter, if_pos hstay], h⟩
  · refine ⟨stack.dropLast, ?_, h⟩
    rw [enter, if_neg hstay, if_pos hup, List.dropLast_append_of_ne_nil hroot]
  · refine ⟨stack ++ [name], ?_, h⟩
    rw [enter, if_neg hstay, if_neg hup, List.append_assoc]

theorem walk_of_descent {stack rest : List String} (h : descent stack names = some rest)
    (base : Place) : walk (base ++ stack) names = base ++ rest := by
  induction names generalizing stack with
  | nil =>
    cases h
    rfl
  | cons name names ih =>
    obtain ⟨stack', henter, hrest⟩ := enter_of_descent h base
    rw [walk_cons, henter, ih hrest]

theorem trail_of_descent {stack rest : List String} (h : descent stack names = some rest)
    (hplace : place ∈ trail (base ++ stack) names) : base <+: place := by
  induction names generalizing stack with
  | nil => cases hplace
  | cons name names ih =>
    obtain ⟨stack', henter, hrest⟩ := enter_of_descent h base
    rw [trail_cons, henter] at hplace
    rcases List.mem_cons.mp hplace with rfl | hplace
    · exact List.prefix_append _ _
    · exact ih hrest hplace

/-- From a directory below the root, a walk that leaves it ends at a place that
does not depend on the directory's name. -/
theorem walk_of_escape {stack : List String} (h : descent stack names = none) (x y : String) :
    walk (x :: stack) names = walk (y :: stack) names := by
  induction names generalizing stack with
  | nil => cases h
  | cons name names ih =>
    rw [descent] at h
    rw [walk_cons, walk_cons]
    split_ifs at h with hstay hup hroot
    · rw [enter, enter, if_pos hstay, if_pos hstay]
      exact ih h
    · rw [enter, enter, if_neg hstay, if_neg hstay, if_pos hup, if_pos hup, hroot]
      rfl
    · rw [enter, enter, if_neg hstay, if_neg hstay, if_pos hup, if_pos hup,
        List.dropLast_cons_of_ne_nil hroot, List.dropLast_cons_of_ne_nil hroot]
      exact ih h
    · rw [enter, enter, if_neg hstay, if_neg hstay, if_neg hup, if_neg hup]
      exact ih h

/-- A path that descends ends below any directory it is joined to. -/
theorem below_of_descends {a b : String} (ha : a ≠ "") (hb : descends b = true) (cwd : Place) :
    Below (resolve cwd a) (resolve cwd (join a b)) := by
  rw [descends, Bool.and_eq_true, Bool.not_eq_true'] at hb
  rw [resolve_join ha hb.1]
  have hrest := hb.2
  split at hrest
  · rename_i name rest hdescent
    have hwalk := walk_of_descent hdescent (resolve cwd a)
    rw [List.append_nil] at hwalk
    rw [hwalk]
    exact ⟨List.prefix_append _ _, by simp⟩
  · cases hrest

end LexicalPath
