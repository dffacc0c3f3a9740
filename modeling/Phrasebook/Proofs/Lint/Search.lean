import Mathlib.Data.Set.Insert
import Mathlib.Logic.Relation
import Phrasebook.Proofs.Lint.SearchRules

/-!
# The search for cycles

`searchFrom` is a depth-first search: it visits each key once.  Write `V` for the keys visited before some targets are
followed.

* The keys visited afterwards are `V` and what can be reached from the targets through fresh keys, that is greater ones
  than the start that are not in `V` (`Explored.visited`).
* The paths that the search goes along are told by `Goes`: each step leads to the first target from which the rest has
  not been visited by way of an earlier one.  Each visited key is the end of such a path (`Explored.goes`), and the
  cycles found are the paths whose last key refers to the start (`Explored.found`).
-/

namespace Phrasebook

namespace Lint

/-- A key that the search may still visit. -/
def Fresh (start : String) (V : Set String) (key : String) : Prop :=
  start < key ∧ key ∉ V

/-- A step from a key to a fresh target of it. -/
def Step (graph : Graph) (start : String) (V : Set String) (key target : String) : Prop :=
  target ∈ successors graph key ∧ Fresh start V target

/-- What can be reached from some keys through fresh ones. -/
def Reach (graph : Graph) (start : String) (V : Set String) (sources : List String) : Set String :=
  {key | ∃ source ∈ sources, Fresh start V source ∧ Relation.ReflTransGen (Step graph start V) source key}

variable {graph : Graph} {start : String} {V W : Set String}

theorem Fresh.mono {key : String} (h : V ⊆ W) (hkey : Fresh start W key) : Fresh start V key :=
  ⟨hkey.1, fun hV => hkey.2 (h hV)⟩

private theorem path_mono {key target : String} (h : V ⊆ W)
    (hpath : Relation.ReflTransGen (Step graph start W) key target) :
    Relation.ReflTransGen (Step graph start V) key target :=
  Relation.ReflTransGen.mono (fun _ _ hstep => ⟨hstep.1, hstep.2.mono h⟩) _ _ hpath

/-! ### Reachable keys -/

theorem reach_nil : Reach graph start V [] = ∅ := by
  ext key
  simp [Reach]

theorem reach_mono {sources : List String} (h : V ⊆ W) : Reach graph start W sources ⊆ Reach graph start V sources := by
  rintro key ⟨source, hmem, hfresh, hpath⟩
  exact ⟨source, hmem, hfresh.mono h, path_mono h hpath⟩

theorem fresh_of_mem_reach {sources : List String} {key : String} (h : key ∈ Reach graph start V sources) :
    Fresh start V key := by
  obtain ⟨source, _, hfresh, hpath⟩ := h
  cases hpath with
  | refl => exact hfresh
  | tail _ hstep => exact hstep.2

theorem mem_reach_of_mem {sources : List String} {key : String} (h : key ∈ sources) (hfresh : Fresh start V key) :
    key ∈ Reach graph start V sources :=
  ⟨key, h, hfresh, .refl⟩

/-- Fresh targets of what is reached are reached. -/
theorem mem_reach_of_successor {sources : List String} {key target : String}
    (h : key ∈ Reach graph start V sources) (htarget : target ∈ successors graph key)
    (hfresh : Fresh start V target) : target ∈ Reach graph start V sources := by
  obtain ⟨source, hmem, hsource, hpath⟩ := h
  exact ⟨source, hmem, hsource, hpath.tail ⟨htarget, hfresh⟩⟩

theorem reach_append {before after : List String} :
    Reach graph start V (before ++ after) = Reach graph start V before ∪ Reach graph start V after := by
  ext key
  constructor
  · rintro ⟨source, hmem, hfresh, hpath⟩
    rcases List.mem_append.1 hmem with hmem | hmem
    · exact .inl ⟨source, hmem, hfresh, hpath⟩
    · exact .inr ⟨source, hmem, hfresh, hpath⟩
  · rintro (⟨source, hmem, hfresh, hpath⟩ | ⟨source, hmem, hfresh, hpath⟩)
    · exact ⟨source, List.mem_append_left _ hmem, hfresh, hpath⟩
    · exact ⟨source, List.mem_append_right _ hmem, hfresh, hpath⟩

/-- A target that is not fresh adds nothing. -/
theorem reach_cons_of_not_fresh {target : String} {rest : List String} (h : ¬ Fresh start V target) :
    Reach graph start V (target :: rest) = Reach graph start V rest := by
  ext key
  constructor
  · rintro ⟨source, hmem, hfresh, hpath⟩
    rcases List.mem_cons.1 hmem with rfl | hmem
    · exact absurd hfresh h
    · exact ⟨source, hmem, hfresh, hpath⟩
  · rintro ⟨source, hmem, hfresh, hpath⟩
    exact ⟨source, List.mem_cons_of_mem _ hmem, hfresh, hpath⟩

/-- What the rest of the targets reach need not be sought through what the first ones reach. -/
theorem union_reach_append (before after : List String) :
    V ∪ Reach graph start V (before ++ after) =
      V ∪ Reach graph start V before ∪ Reach graph start (V ∪ Reach graph start V before) after := by
  ext key
  constructor
  · rintro (hV | ⟨source, hmem, hfresh, hpath⟩)
    · exact .inl (.inl hV)
    · -- Along the path: as long as no key is reached by way of `before`, all are fresh for `after`.
      have hsplit : ∀ {x}, x ∈ Reach graph start V before ∨ x ∈ Reach graph start (V ∪ Reach graph start V before) after →
          x ∈ V ∪ Reach graph start V before ∪ Reach graph start (V ∪ Reach graph start V before) after := by
        rintro x (hx | hx)
        · exact .inl (.inr hx)
        · exact .inr hx
      apply hsplit
      induction hpath with
      | refl =>
        by_cases hbefore : source ∈ Reach graph start V before
        · exact .inl hbefore
        · rcases List.mem_append.1 hmem with hmem | hmem
          · exact .inl (mem_reach_of_mem hmem hfresh)
          · exact .inr (mem_reach_of_mem hmem ⟨hfresh.1, fun h => h.elim hfresh.2 hbefore⟩)
      | @tail y z _ hstep ih =>
        by_cases hbefore : z ∈ Reach graph start V before
        · exact .inl hbefore
        · rcases ih with hy | hy
          · exact .inl (mem_reach_of_successor hy hstep.1 hstep.2)
          · exact .inr (mem_reach_of_successor hy hstep.1 ⟨hstep.2.1, fun h => h.elim hstep.2.2 hbefore⟩)
  · rintro ((hV | hbefore) | hafter)
    · exact .inl hV
    · exact .inr (reach_append ▸ .inl hbefore)
    · exact .inr (reach_append ▸ .inr (reach_mono Set.subset_union_left hafter))

/-- From a fresh key one reaches it and what its targets reach otherwise. -/
theorem union_reach_singleton {key : String} (h : Fresh start V key) :
    V ∪ Reach graph start V [key] = insert key V ∪ Reach graph start (insert key V) (successors graph key) := by
  ext x
  constructor
  · rintro (hV | ⟨source, hmem, hfresh, hpath⟩)
    · exact .inl (.inr hV)
    · obtain rfl := List.mem_singleton.1 hmem
      induction hpath with
      | refl => exact .inl (.inl rfl)
      | @tail y z hpath hstep ih =>
        by_cases hz : z = source
        · exact .inl (.inl hz)
        · have hfresh' : Fresh start (insert source V) z := ⟨hstep.2.1, fun h => h.elim hz hstep.2.2⟩
          rcases ih with (rfl | hy) | hy
          · exact .inr (mem_reach_of_mem hstep.1 hfresh')
          · have hreach : y ∈ Reach graph start V [source] := ⟨source, hmem, hfresh, hpath⟩
            exact absurd hy (fresh_of_mem_reach hreach).2
          · exact .inr (mem_reach_of_successor hy hstep.1 hfresh')
  · rintro ((rfl | hV) | hx)
    · exact .inr (mem_reach_of_mem (List.mem_singleton_self _) h)
    · exact .inl hV
    · refine .inr ?_
      obtain ⟨source, hmem, hfresh, hpath⟩ := hx
      have hmono : V ⊆ insert key V := Set.subset_insert key V
      refine ⟨key, List.mem_singleton_self _, h, ?_⟩
      exact .trans (.single ⟨hmem, hfresh.mono hmono⟩) (path_mono hmono hpath)

/-! ### The paths of the search -/

/-- The search goes along this path from a key with these targets: each step leads to the first target from which the
key was not visited before. -/
def Goes (graph : Graph) (start : String) : Set String → List String → List String → Prop
  | _, _, [] => True
  | V, targets, key :: rest => ∃ before after, targets = before ++ key :: after ∧
      Fresh start (V ∪ Reach graph start V before) key ∧
      Goes graph start (insert key (V ∪ Reach graph start V before)) (successors graph key) rest

theorem goes_cons_of_not_fresh {target : String} {rest path : List String} (h : ¬ Fresh start V target) :
    Goes graph start V (target :: rest) path ↔ Goes graph start V rest path := by
  cases path with
  | nil => exact Iff.rfl
  | cons key path =>
    constructor
    · rintro ⟨_ | ⟨first, before⟩, after, hsplit, hfresh, hgoes⟩
      · obtain ⟨rfl, -⟩ := List.cons.inj hsplit
        exact absurd (hfresh.mono Set.subset_union_left) h
      · obtain ⟨rfl, rfl⟩ := List.cons.inj hsplit
        rw [reach_cons_of_not_fresh h] at hfresh hgoes
        exact ⟨before, after, rfl, hfresh, hgoes⟩
    · rintro ⟨before, after, rfl, hfresh, hgoes⟩
      refine ⟨target :: before, after, rfl, ?_, ?_⟩
      · rwa [reach_cons_of_not_fresh h]
      · rwa [reach_cons_of_not_fresh h]

theorem goes_cons_of_fresh {target : String} {rest path : List String} (h : Fresh start V target) :
    Goes graph start V (target :: rest) path ↔
      (∃ more, path = target :: more ∧ Goes graph start (insert target V) (successors graph target) more) ∨
        Goes graph start (V ∪ Reach graph start V [target]) rest path := by
  cases path with
  | nil => exact ⟨fun _ => .inr trivial, fun _ => trivial⟩
  | cons key path =>
    have hunion (before : List String) : V ∪ Reach graph start V (target :: before) =
        V ∪ Reach graph start V [target] ∪ Reach graph start (V ∪ Reach graph start V [target]) before :=
      union_reach_append [target] before
    constructor
    · rintro ⟨_ | ⟨first, before⟩, after, hsplit, hfresh, hgoes⟩
      · obtain ⟨rfl, -⟩ := List.cons.inj hsplit
        rw [reach_nil, Set.union_empty] at hgoes
        exact .inl ⟨path, rfl, hgoes⟩
      · obtain ⟨rfl, rfl⟩ := List.cons.inj hsplit
        rw [hunion] at hfresh hgoes
        exact .inr ⟨before, after, rfl, hfresh, hgoes⟩
    · rintro (⟨more, heq, hgoes⟩ | ⟨before, after, rfl, hfresh, hgoes⟩)
      · obtain ⟨rfl, rfl⟩ := List.cons.inj heq
        refine ⟨[], rest, rfl, ?_, ?_⟩
        · rwa [reach_nil, Set.union_empty]
        · rwa [reach_nil, Set.union_empty]
      · refine ⟨target :: before, after, rfl, ?_, ?_⟩
        · rwa [hunion]
        · rwa [hunion]

/-- The targets at the end of a path from a key with these targets. -/
def lastTargets (graph : Graph) (targets path : List String) : List String :=
  match path.getLast? with
  | none => targets
  | some key => successors graph key

theorem lastTargets_cons (graph : Graph) (targets : List String) (key : String) (path : List String) :
    lastTargets graph targets (key :: path) = lastTargets graph (successors graph key) path := by
  unfold lastTargets
  rw [List.getLast?_cons]
  cases path.getLast? <;> rfl

/-! ### What the search does -/

/-- The keys that a search has visited. -/
def Search.keys (search : Search) : Set String :=
  {key | key ∈ search.visited}

/-- What following some targets from the end of a path does. -/
structure Explored (graph : Graph) (start : String) (path targets : List String) (search after : Search) : Prop where
  visited : after.keys = search.keys ∪ Reach graph start search.keys targets
  goes : ∀ key ∈ after.keys, key ∈ search.keys ∨
    ∃ more, Goes graph start search.keys targets more ∧ more.getLast? = some key
  found : ∀ chain, chain ∈ after.found ↔ chain ∈ search.found ∨
    ∃ more, Goes graph start search.keys targets more ∧ start ∈ lastTargets graph targets more ∧
      chain = path ++ more ++ [start]

private theorem explored_nil (graph : Graph) (start : String) (path : List String) (search : Search) :
    Explored graph start path [] search search := by
  constructor
  · rw [reach_nil, Set.union_empty]
  · exact fun key h => .inl h
  · intro chain
    constructor
    · exact .inl
    · rintro (h | ⟨_ | ⟨key, more⟩, hgoes, hlast, -⟩)
      · exact h
      · cases hlast
      · obtain ⟨before, after, hsplit, -⟩ := hgoes
        simp at hsplit

private theorem mem_lastTargets_cons_iff {start target : String} {rest more : List String} (h : target ≠ start) :
    start ∈ lastTargets graph (target :: rest) more ↔ start ∈ lastTargets graph rest more := by
  cases more with
  | nil => exact List.mem_cons.trans (or_iff_right h.symm)
  | cons key more => rw [lastTargets_cons, lastTargets_cons]

private theorem not_fresh_start : ¬ Fresh start V start :=
  fun h => absurd h.1 (String.lt_irrefl start)

/-- The start is found among the targets. -/
private theorem explored_cons_start {path rest : List String} {search after : Search}
    (h : Explored graph start path rest { search with found := (path ++ [start]) :: search.found } after) :
    Explored graph start path (start :: rest) search after := by
  constructor
  · rw [reach_cons_of_not_fresh not_fresh_start]
    exact h.visited
  · intro key hkey
    refine (h.goes key hkey).imp_right ?_
    rintro ⟨more, hgoes, hlast⟩
    exact ⟨more, (goes_cons_of_not_fresh not_fresh_start).2 hgoes, hlast⟩
  · intro chain
    rw [h.found]
    constructor
    · rintro (hmem | ⟨more, hgoes, hlast, rfl⟩)
      · rcases List.mem_cons.1 hmem with rfl | hmem
        · exact .inr ⟨[], trivial, List.mem_cons_self, by simp⟩
        · exact .inl hmem
      · refine .inr ⟨more, (goes_cons_of_not_fresh not_fresh_start).2 hgoes, ?_, rfl⟩
        cases more with
        | nil => exact List.mem_cons_self
        | cons key more => rwa [lastTargets_cons] at hlast ⊢
    · rintro (hmem | ⟨more, hgoes, hlast, rfl⟩)
      · exact .inl (List.mem_cons_of_mem _ hmem)
      · cases more with
        | nil => exact .inl (by simp)
        | cons key more =>
          refine .inr ⟨key :: more, (goes_cons_of_not_fresh not_fresh_start).1 hgoes, ?_, rfl⟩
          rwa [lastTargets_cons] at hlast ⊢

/-- A target is passed over. -/
private theorem explored_cons_of_not_fresh {path rest : List String} {target : String} {search after : Search}
    (hne : target ≠ start) (hfresh : ¬ Fresh start search.keys target)
    (h : Explored graph start path rest search after) : Explored graph start path (target :: rest) search after := by
  constructor
  · rw [reach_cons_of_not_fresh hfresh]
    exact h.visited
  · intro key hkey
    refine (h.goes key hkey).imp_right ?_
    rintro ⟨more, hgoes, hlast⟩
    exact ⟨more, (goes_cons_of_not_fresh hfresh).2 hgoes, hlast⟩
  · intro chain
    rw [h.found]
    simp only [goes_cons_of_not_fresh hfresh, mem_lastTargets_cons_iff hne]

/-- A target is visited, and the search goes on from there before it follows the rest. -/
private theorem explored_cons_of_fresh {path rest : List String} {target : String} {search inner after : Search}
    (hfresh : Fresh start search.keys target)
    (hinner : Explored graph start (path ++ [target]) (successors graph target)
      { search with visited := target :: search.visited } inner)
    (hrest : Explored graph start path rest inner after) :
    Explored graph start path (target :: rest) search after := by
  have hne : target ≠ start := by
    rintro rfl
    exact not_fresh_start hfresh
  have hkeys : ({ search with visited := target :: search.visited } : Search).keys = insert target search.keys := by
    ext key
    exact List.mem_cons
  obtain ⟨hvisited, hgoes, hfound⟩ := hinner
  rw [hkeys] at hvisited hgoes hfound
  rw [← union_reach_singleton hfresh] at hvisited
  constructor
  · rw [hrest.visited, hvisited]
    exact (union_reach_append [target] rest).symm
  · -- A key is visited by way of the rest, or else is the target or visited from there.
    intro key hkey
    rcases hrest.goes key hkey with hkey | ⟨more, hmore, hlast⟩
    · rcases hgoes key hkey with (rfl | hkey) | ⟨more, hmore, hlast⟩
      · exact .inr ⟨[key], (goes_cons_of_fresh hfresh).2 (.inl ⟨[], rfl, trivial⟩), rfl⟩
      · exact .inl hkey
      · refine .inr ⟨target :: more, (goes_cons_of_fresh hfresh).2 (.inl ⟨more, rfl, hmore⟩), ?_⟩
        rw [List.getLast?_cons, hlast]
        rfl
    · rw [hvisited] at hmore
      exact .inr ⟨more, (goes_cons_of_fresh hfresh).2 (.inr hmore), hlast⟩
  · intro chain
    rw [hrest.found, hfound, hvisited]
    constructor
    · rintro ((hmem | ⟨more, hmore, hlast, rfl⟩) | ⟨more, hmore, hlast, rfl⟩)
      · exact .inl hmem
      · refine .inr ⟨target :: more, (goes_cons_of_fresh hfresh).2 (.inl ⟨more, rfl, hmore⟩), ?_, by simp⟩
        rwa [lastTargets_cons]
      · exact .inr ⟨more, (goes_cons_of_fresh hfresh).2 (.inr hmore), (mem_lastTargets_cons_iff hne).2 hlast, rfl⟩
    · rintro (hmem | ⟨more, hmore, hlast, rfl⟩)
      · exact .inl (.inl hmem)
      · rcases (goes_cons_of_fresh hfresh).1 hmore with ⟨more, rfl, hinner⟩ | hlater
        · rw [lastTargets_cons] at hlast
          exact .inl (.inr ⟨more, hinner, hlast, by simp⟩)
        · exact .inr ⟨more, hlater, (mem_lastTargets_cons_iff hne).1 hlast, rfl⟩

/-- By induction on the rules: each of them explores what its target leads to. -/
private theorem Follows.explored {path targets : List String} {search after : Search}
    (h : Follows graph start path targets search after) : Explored graph start path targets search after := by
  induction h with
  | nil => exact explored_nil graph start _ _
  | closes _ ih => exact explored_cons_start ih
  | continues hlt hnew _ _ ihinner ihrest => exact explored_cons_of_fresh ⟨hlt, hnew⟩ ihinner ihrest
  | passes hne hpass _ ih => exact explored_cons_of_not_fresh hne hpass ih

private theorem explored_start (graph : Graph) (start : String) :
    Explored graph start [start] (successors graph start) {} (searchFrom graph start (graph.length + 1) [start] {}) :=
  (follows_iff.2 rfl).explored

private theorem keys_empty : ({} : Search).keys = ∅ := by
  ext key
  simp [Search.keys]

/-- The cycles found from a key are the paths of the search whose last key refers to it. -/
theorem mem_cyclesFrom_iff {graph : Graph} {start : String} {chain : List String} :
    chain ∈ cyclesFrom graph start ↔ ∃ path, Goes graph start ∅ (successors graph start) path ∧
      start ∈ lastTargets graph (successors graph start) path ∧ chain = start :: path ++ [start] := by
  have h := (explored_start graph start).found chain
  rw [keys_empty] at h
  unfold cyclesFrom
  rw [h]
  simp

/-- The search goes to every key that can be reached. -/
theorem exists_goes_of_mem_reach {graph : Graph} {start key : String}
    (h : key ∈ Reach graph start ∅ (successors graph start)) :
    ∃ path, Goes graph start ∅ (successors graph start) path ∧ path.getLast? = some key := by
  have hexplored := explored_start graph start
  have hvisited := hexplored.visited
  have hgoes := hexplored.goes key
  rw [keys_empty] at hvisited hgoes
  rcases hgoes (hvisited ▸ .inr h) with hempty | hpath
  · cases hempty
  · exact hpath

end Lint

end Phrasebook
