import HeaderLint.Proofs.Path.Steps

/-!
# How a path is resolved

Resolving takes one segment at a time.  `FileSystem.turn?` is what one segment does: it leads to a
place, and a link puts the segments of its target in front of the rest.  What it does depends on
the form of two nodes only, the directory it starts from and the entry it names (`Node.Form`).
What holds of a turn holds of the whole way, by induction on the links that are left and the
segments to go (`FileSystem.resolve_induction`).

The first segments of a path lead somewhere before the last ones do, whatever links are on the way
(`FileSystem.resolveFrom?_append`).  A segment that is no step leads nowhere, and need not be there
when a step follows.  So two paths with the same components that end in a step stand for the same
place, if they are short enough (`FileSystem.resolve?_eq_of_components_eq`).
-/

namespace HeaderLint

/-! ## The form of a node -/

namespace Node

/-- What a node is, without its bytes or entries. -/
inductive Form where
  | file
  | dir
  | link (target : Path)

/-- The form of a node. -/
def form : Node → Form
  | .file _ => .file
  | .dir _ => .dir
  | .link target => .link target

/-- The form of the node at a location. -/
def formAt? (n : Node) (l : Location) : Option Form := (n.at? l).map form

theorem form_eq_file_iff {n : Node} : n.form = .file ↔ n.isFile = true := by
  cases n with
  | file content => simp [form, isFile]
  | dir entries => simp [form, isFile]
  | link target => simp [form, isFile]

theorem at?_append (n : Node) (front back : Location) :
    n.at? (front ++ back) = (n.at? front).bind fun m => m.at? back := by
  induction front generalizing n with
  | nil => rfl
  | cons name front ih =>
    rw [List.cons_append, at?, at?, Option.bind_assoc]
    exact Option.bind_congr fun m _ => ih m

theorem at?_singleton (n : Node) (name : String) : n.at? [name] = n.child? name :=
  Option.bind_fun_some _

end Node

namespace Place

/-- The form of the node at a place. -/
def form? (p : Place) (tree : Node) : Option Node.Form := (p.node? tree).map Node.form

/-- The form of an entry of the directory at a place. -/
def entryForm? (p : Place) (tree : Node) (name : String) : Option Node.Form :=
  ((p.node? tree).bind fun n => n.child? name).map Node.form

theorem form?_eq (p : Place) (tree : Node) :
    p.form? tree = if p.gone = 0 then tree.formAt? p.location else some .dir := by
  rw [form?, node?]
  split
  · rfl
  · rfl

theorem entryForm?_eq (p : Place) (tree : Node) (name : String) :
    p.entryForm? tree name =
      if p.gone = 0 then tree.formAt? (p.location ++ [name]) else none := by
  rw [entryForm?, node?]
  split
  · rw [Node.formAt?, Node.at?_append]
    exact congrArg (Option.map _) (Option.bind_congr fun n _ => (n.at?_singleton name).symm)
  · rfl

end Place

namespace FileSystem

/-! ## One segment -/

/-- Where a segment leads. -/
structure Turn where
  /-- The number of links that may still be followed. -/
  links : Nat
  /-- The place that is reached. -/
  place : Place
  /-- The segments to go before the rest. -/
  more : List String := []
deriving DecidableEq

/-- Where an entry of a given form leads, seen from its directory. -/
def entryTurn? (links : Nat) (here : Place) (name : String) : Node.Form → Option Turn
  | .link target =>
    match links with
    | 0 => none
    | links + 1 =>
      if target.text.isEmpty then none
      else some { links, place := startOf here target, more := target.segments }
  | _ => some { links, place := here.child name }

/-- Where a segment leads, seen from the directory `here`. -/
def turn? (root : Node) (links : Nat) (here : Place) (segment : String) : Option Turn :=
  match here.form? root with
  | some .dir =>
    if segment = "" ∨ segment = "." then some { links, place := here }
    else if segment = ".." then some { links, place := here.parent }
    else (here.entryForm? root segment).bind (entryTurn? links here segment)
  | _ => none

section
variable {root : Node} {links : Nat} {here : Place} {segment : String} {rest : List String}

theorem resolveFrom?_nil : resolveFrom? root links here [] = some here := by
  rw [resolveFrom?]

theorem resolveFrom?_cons :
    resolveFrom? root links here (segment :: rest) =
      (turn? root links here segment).bind fun t =>
        resolveFrom? root t.links t.place (t.more ++ rest) := by
  rw [resolveFrom?.eq_def, turn?, Place.form?, Place.entryForm?]
  rcases here.node? root with _ | content | entries | target
  · rfl
  · rfl
  · dsimp only [Option.map_some, Option.bind_some, Node.form, Node.child?, Node.entries]
    by_cases hstep : segment = "" ∨ segment = "."
    · rw [if_pos hstep, if_pos hstep]
      rfl
    rw [if_neg hstep, if_neg hstep]
    by_cases hup : segment = ".."
    · rw [if_pos hup, if_pos hup]
      rfl
    rw [if_neg hup, if_neg hup]
    rcases entries.lookup segment with _ | content | entries | target
    · rfl
    · rfl
    · rfl
    cases links with
    | zero => rfl
    | succ links =>
      dsimp only [Option.map_some, Option.bind_some, Node.form, entryTurn?]
      split
      · rfl
      · rfl
  · rfl

theorem entryTurn?_decreases {form : Node.Form} {t : Turn}
    (h : entryTurn? links here segment form = some t) :
    t.links < links ∨ t.links = links ∧ t.more = [] := by
  cases form with
  | file =>
    cases h
    exact .inr ⟨rfl, rfl⟩
  | dir =>
    cases h
    exact .inr ⟨rfl, rfl⟩
  | link target =>
    cases links with
    | zero => cases h
    | succ links =>
      rw [entryTurn?] at h
      split at h
      · cases h
      · cases h
        exact .inl (Nat.lt_succ_self links)

/-- A segment that takes a link leaves fewer links, and any other puts nothing before the rest. -/
theorem turn?_decreases {t : Turn} (h : turn? root links here segment = some t) :
    t.links < links ∨ t.links = links ∧ t.more = [] := by
  rw [turn?] at h
  split at h
  · split at h
    · cases h
      exact .inr ⟨rfl, rfl⟩
    · split at h
      · cases h
        exact .inr ⟨rfl, rfl⟩
      · obtain ⟨form, -, h⟩ := Option.bind_eq_some_iff.mp h
        exact entryTurn?_decreases h
  · cases h

end

/-- What holds when no segment is left, and of a segment when it holds of where that leads, holds of
every way. -/
@[elab_as_elim]
theorem resolve_induction (root : Node) {motive : Nat → Place → List String → Prop}
    (nil : ∀ links here, motive links here [])
    (cons : ∀ links here segment rest,
      (∀ t, turn? root links here segment = some t → motive t.links t.place (t.more ++ rest)) →
        motive links here (segment :: rest))
    (links : Nat) (here : Place) (segments : List String) : motive links here segments :=
  match segments with
  | [] => nil links here
  | segment :: rest =>
    cons links here segment rest fun t ht =>
      have := turn?_decreases ht
      resolve_induction root nil cons t.links t.place (t.more ++ rest)
termination_by (links, segments.length)
decreasing_by
  rcases this with hlt | ⟨heq, hmore⟩
  · exact Prod.Lex.left _ _ hlt
  · rw [heq, hmore]
    exact Prod.Lex.right _ (Nat.lt_succ_self _)

/-! ## The first segments and the last -/

section
variable {root : Node} {links : Nat} {here : Place} {segment : String} {rest : List String}

/-- The first segments lead to a place from where the last ones are resolved, or nowhere. -/
theorem resolveFrom?_append (root : Node) (links : Nat) (here : Place) (front : List String) :
    (∃ links' place, resolveFrom? root links here front = some place ∧
      ∀ rest, resolveFrom? root links here (front ++ rest) =
        resolveFrom? root links' place rest) ∨
    ∀ rest, resolveFrom? root links here (front ++ rest) = none := by
  induction links, here, front using resolve_induction root with
  | nil links here => exact .inl ⟨links, here, resolveFrom?_nil, fun _ => rfl⟩
  | cons links here segment front ih =>
    cases hturn : turn? root links here segment with
    | none =>
      refine .inr fun rest => ?_
      rw [List.cons_append, resolveFrom?_cons, hturn, Option.bind_none]
    | some t =>
      refine (ih t hturn).imp ?_ fun hnone rest => ?_
      · rintro ⟨links', place, hfront, hrest⟩
        refine ⟨links', place, ?_, fun rest => ?_⟩
        · rw [resolveFrom?_cons, hturn]
          exact hfront
        · rw [List.cons_append, resolveFrom?_cons, hturn, ← hrest rest, List.append_assoc]
          rfl
      · rw [List.cons_append, resolveFrom?_cons, hturn, ← hnone rest, List.append_assoc]
        rfl

/-- The last segment is a turn of its own. -/
theorem exists_turn?_of_getLast? {segments : List String} {last : String} {place : Place}
    (hlast : segments.getLast? = some last)
    (hplace : resolveFrom? root links here segments = some place) :
    ∃ links' dir t, turn? root links' dir last = some t ∧
      resolveFrom? root t.links t.place t.more = some place := by
  obtain ⟨front, rfl⟩ := List.getLast?_eq_some_iff.mp hlast
  rcases resolveFrom?_append root links here front with ⟨links', dir, -, hrest⟩ | hnone
  · rw [hrest, resolveFrom?_cons, Option.bind_eq_some_iff] at hplace
    obtain ⟨t, hturn, hplace⟩ := hplace
    rw [List.append_nil] at hplace
    exact ⟨links', dir, t, hturn, hplace⟩
  · rw [hnone] at hplace
    cases hplace

/-! ## Segments that lead nowhere -/

/-- What stands behind something that is no directory leads nowhere. -/
theorem resolveFrom?_of_not_dir (h : here.form? root ≠ some .dir) (hrest : rest ≠ []) :
    resolveFrom? root links here rest = none := by
  obtain ⟨segment, rest, rfl⟩ := List.exists_cons_of_ne_nil hrest
  have hturn : turn? root links here segment = none := by
    rw [turn?]
    split
    · next hdir => exact absurd hdir h
    · rfl
  rw [resolveFrom?_cons, hturn, Option.bind_none]

/-- A segment that is no step may be left out when something follows. -/
theorem resolveFrom?_skip (h : isStep segment = false) (hrest : rest ≠ []) :
    resolveFrom? root links here (segment :: rest) = resolveFrom? root links here rest := by
  by_cases hdir : here.form? root = some .dir
  · have hturn : turn? root links here segment = some { links, place := here } := by
      rw [turn?, hdir]
      exact if_pos (isStep_eq_false_iff.mp h)
    rw [resolveFrom?_cons, hturn]
    rfl
  · rw [resolveFrom?_of_not_dir hdir (List.cons_ne_nil _ _), resolveFrom?_of_not_dir hdir hrest]

/-- Only the steps matter when the last segment is one. -/
theorem resolveFrom?_filter {segments : List String} {last : String}
    (hlast : segments.getLast? = some last) (hstep : isStep last = true) :
    resolveFrom? root links here (segments.filter isStep) =
      resolveFrom? root links here segments := by
  induction segments generalizing links here with
  | nil => cases hlast
  | cons segment rest ih =>
    cases rest with
    | nil =>
      obtain rfl : segment = last := Option.some.inj hlast
      rw [List.filter_cons_of_pos hstep, List.filter_nil]
    | cons second rest =>
      rw [List.getLast?_cons_cons] at hlast
      by_cases hsegment : isStep segment = true
      · -- a link may lead through other segments first, and both sides go on from where it ends
        have hcases : (∃ links' place, ∀ rest, resolveFrom? root links here (segment :: rest) =
            resolveFrom? root links' place rest) ∨
            ∀ rest, resolveFrom? root links here (segment :: rest) = none :=
          (resolveFrom?_append root links here [segment]).imp_left
            fun ⟨links', place, _, hrest⟩ => ⟨links', place, hrest⟩
        rw [List.filter_cons_of_pos hsegment]
        rcases hcases with ⟨links', place, hrest⟩ | hnone
        · rw [hrest, hrest, ih hlast]
        · rw [hnone, hnone]
      · rw [Bool.not_eq_true] at hsegment
        rw [List.filter_cons_of_neg (Bool.not_eq_true _ ▸ hsegment), ih hlast,
          resolveFrom?_skip hsegment (List.cons_ne_nil _ _)]

end

/-- A path that ends in a step stands for what a longer one with its components does. -/
theorem resolve?_of_components_eq {fs : FileSystem} {p q : Path} {place : Place}
    (h : p.components = q.components) (hp : p.EndsInStep) (hq : q.EndsInStep)
    (hsize : p.text.utf8ByteSize ≤ q.text.utf8ByteSize) (hplace : fs.resolve? q = some place) :
    fs.resolve? p = some place := by
  have hshort : ¬(p.text.isEmpty ∨ maxPathBytes < p.text.utf8ByteSize) := by
    rw [resolve?] at hplace
    split at hplace
    · cases hplace
    · next hq =>
      rw [String.isEmpty_iff]
      exact not_or.mpr ⟨hp.text_ne_empty, fun hlong => hq (.inr (Nat.lt_of_lt_of_le hlong hsize))⟩
  obtain ⟨lastp, hlastp, hstepp⟩ := hp
  obtain ⟨lastq, hlastq, hstepq⟩ := hq
  rw [resolve?] at hplace
  split at hplace
  · cases hplace
  · rw [resolve?, if_neg hshort, ← hplace, startOf, startOf,
      Path.isAbsolute_eq_of_components_eq h, ← resolveFrom?_filter hlastp hstepp,
      ← resolveFrom?_filter hlastq hstepq]
    exact congrArg _ (Path.steps_eq_of_components_eq h)

end FileSystem

end HeaderLint
