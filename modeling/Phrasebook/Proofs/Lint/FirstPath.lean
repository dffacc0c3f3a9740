import Phrasebook.Proofs.Lint.Search
import Phrasebook.Proofs.Paths

/-!
# First paths

Simple paths to one key are compared where they part: the one that goes to the target mentioned earlier comes first
(`Before`).  The paths that the search goes along are the first ones to their ends (`goes_iff`).
-/

namespace Phrasebook

namespace Lint

/-- A simple path through fresh keys, from a key with these targets. -/
def White (graph : Graph) (start : String) : Set String → List String → List String → Prop
  | _, _, [] => True
  | V, targets, key :: rest =>
    key ∈ targets ∧ Fresh start V key ∧ White graph start (insert key V) (successors graph key) rest

/-- The first of these targets comes before the second. -/
def Earlier (targets : List String) (a b : String) : Prop :=
  ∃ before after, targets = before ++ b :: after ∧ b ∉ before ∧ a ∈ before

/-- Where the paths part, the first one goes to the earlier target. -/
def Before (graph : Graph) : List String → List String → List String → Prop
  | targets, a :: p, b :: q => Earlier targets a b ∨ a = b ∧ Before graph (successors graph a) p q
  | _, _, _ => False

variable {graph : Graph} {start : String} {V W : Set String} {targets : List String}

/-! ### Simple paths -/

theorem white_iff {path : List String} :
    White graph start V targets path ↔ (∀ first ∈ path.head?, first ∈ targets) ∧
      path.IsChain (fun key target => target ∈ successors graph key) ∧ path.Nodup ∧
      ∀ key ∈ path, Fresh start V key := by
  induction path generalizing V targets with
  | nil => simp [White]
  | cons key path ih =>
    unfold White
    rw [ih, List.isChain_cons, List.nodup_cons]
    constructor
    · rintro ⟨hmem, hfresh, hfirst, hchain, hnodup, hrest⟩
      refine ⟨by simpa using hmem, ⟨hfirst, hchain⟩, ⟨fun hkey => ?_, hnodup⟩, ?_⟩
      · exact (hrest key hkey).2 (Set.mem_insert key V)
      · intro x hx
        rcases List.mem_cons.1 hx with rfl | hx
        · exact hfresh
        · exact (hrest x hx).mono (Set.subset_insert key V)
    · rintro ⟨hmem, ⟨hfirst, hchain⟩, ⟨hkey, hnodup⟩, hfresh⟩
      refine ⟨by simpa using hmem, hfresh key List.mem_cons_self, hfirst, hchain, hnodup, ?_⟩
      intro x hx
      have hxfresh := hfresh x (List.mem_cons_of_mem _ hx)
      refine ⟨hxfresh.1, ?_⟩
      rintro (rfl | hV)
      · exact hkey hx
      · exact hxfresh.2 hV

section

variable {path : List String}

theorem White.fresh (h : White graph start V targets path) {key : String} (hkey : key ∈ path) : Fresh start V key :=
  (white_iff.1 h).2.2.2 key hkey

theorem White.mono (h : V ⊆ W) (hpath : White graph start W targets path) : White graph start V targets path := by
  obtain ⟨hfirst, hchain, hnodup, hfresh⟩ := white_iff.1 hpath
  exact white_iff.2 ⟨hfirst, hchain, hnodup, fun key hkey => (hfresh key hkey).mono h⟩

theorem White.of_subset {more : List String} (h : targets ⊆ more) (hpath : White graph start V targets path) :
    White graph start V more path := by
  obtain ⟨hfirst, hrest⟩ := white_iff.1 hpath
  exact white_iff.2 ⟨fun first hmem => h (hfirst first hmem), hrest⟩

/-- A path that keeps away from more keys. -/
theorem White.union (h : White graph start V targets path) (haway : ∀ key ∈ path, key ∉ W) :
    White graph start (V ∪ W) targets path := by
  obtain ⟨hfirst, hchain, hnodup, hfresh⟩ := white_iff.1 h
  refine white_iff.2 ⟨hfirst, hchain, hnodup, fun key hkey => ⟨(hfresh key hkey).1, ?_⟩⟩
  exact fun hmem => hmem.elim (hfresh key hkey).2 (haway key hkey)

theorem White.last_fresh {key last : String} (h : White graph start (insert key V) targets path)
    (hkey : Fresh start V key) (hlast : (key :: path).getLast? = some last) : Fresh start V last := by
  rcases List.mem_cons.1 (List.mem_of_getLast? hlast) with rfl | hmem
  · exact hkey
  · exact (h.fresh hmem).mono (Set.subset_insert key V)

end

/-- A path on which something reached stands ends in something reached. -/
theorem White.last_mem_reach {path sources : List String} {key last : String}
    (h : White graph start V targets path) (hkey : key ∈ path) (hreach : key ∈ Reach graph start V sources)
    (hlast : path.getLast? = some last) : last ∈ Reach graph start V sources := by
  induction path generalizing targets key with
  | nil => cases hkey
  | cons first path ih =>
    obtain ⟨-, hfresh, hrest⟩ := h
    have hrest := hrest.mono (Set.subset_insert first V)
    rcases path with _ | ⟨second, path⟩
    · obtain rfl := List.mem_singleton.1 hkey
      obtain rfl := Option.some.inj hlast
      exact hreach
    · rw [List.getLast?_cons_cons] at hlast
      rcases List.mem_cons.1 hkey with rfl | hkey
      · exact ih hrest List.mem_cons_self (mem_reach_of_successor hreach hrest.1 hrest.2.1) hlast
      · exact ih hrest hkey hreach hlast

theorem White.notMem_reach {path sources : List String} {last : String} (h : White graph start V targets path)
    (hnew : last ∉ Reach graph start V sources) (hlast : path.getLast? = some last) :
    ∀ key ∈ path, key ∉ Reach graph start V sources :=
  fun _ hkey hreach => hnew (h.last_mem_reach hkey hreach hlast)

/-- What is reached is reached by a simple path. -/
theorem exists_white_of_mem_reach {sources : List String} {key : String} (h : key ∈ Reach graph start V sources) :
    ∃ source ∈ sources, ∃ path, White graph start V sources (source :: path) ∧
      (source :: path).getLast? = some key := by
  obtain ⟨source, hmem, hfresh, hway⟩ := h
  obtain ⟨path, hchain, hnodup, hlast⟩ := exists_simple_path hway
  refine ⟨source, hmem, path, white_iff.2 ⟨by simpa using hmem, ?_, hnodup, ?_⟩, hlast⟩
  · exact hchain.imp fun _ _ hstep => hstep.1
  · exact List.IsChain.induction (Fresh start V) _ hchain (fun _ _ hstep _ => hstep.2) fun _ => hfresh

/-! ### Comparison -/

theorem Earlier.append {before after : List String} {a b : String} (h : Earlier (before ++ b :: after) a b)
    (hb : b ∉ before) : a ∈ before := by
  obtain ⟨first, rest, hsplit, hfirst, ha⟩ := h
  rcases List.append_eq_append_iff.1 hsplit with ⟨more, rfl, hmore⟩ | ⟨more, rfl, hmore⟩
  · rcases more with _ | ⟨key, more⟩
    · simpa using ha
    · obtain ⟨rfl, -⟩ := List.cons.inj hmore
      exact absurd (List.mem_append_right before List.mem_cons_self) hfirst
  · exact List.mem_append_left more ha

private theorem singleton_ne {key last a : String} {stem p : List String} : [key] ≠ stem ++ last :: a :: p := by
  cases stem <;> simp

theorem before_iff {key : String} {path other : List String} :
    Before graph (successors graph key) path other ↔ ∃ stem last a b p q, key :: path = stem ++ last :: a :: p ∧
      key :: other = stem ++ last :: b :: q ∧ Earlier (successors graph last) a b := by
  induction path generalizing key other with
  | nil =>
    constructor
    · exact False.elim
    · rintro ⟨stem, last, a, b, p, q, hpath, -, -⟩
      exact absurd hpath singleton_ne
  | cons a path ih =>
    rcases other with _ | ⟨b, other⟩
    · constructor
      · exact False.elim
      · rintro ⟨stem, last, a, b, p, q, -, hother, -⟩
        exact absurd hother singleton_ne
    · constructor
      · rintro (hearlier | ⟨rfl, hbefore⟩)
        · exact ⟨[], key, a, b, path, other, rfl, rfl, hearlier⟩
        · obtain ⟨stem, last, x, y, p, q, hpath, hother, hearlier⟩ := ih.1 hbefore
          exact ⟨key :: stem, last, x, y, p, q, by rw [hpath]; rfl, by rw [hother]; rfl, hearlier⟩
      · rintro ⟨_ | ⟨first, stem⟩, last, x, y, p, q, hpath, hother, hearlier⟩
        · obtain ⟨rfl, ha⟩ := List.cons.inj hpath
          obtain ⟨rfl, -⟩ := List.cons.inj ha
          obtain ⟨rfl, -⟩ := List.cons.inj (List.cons.inj hother).2
          exact .inl hearlier
        · obtain ⟨-, hpath⟩ := List.cons.inj hpath
          obtain ⟨-, hother⟩ := List.cons.inj hother
          obtain rfl : a = b := by
            cases stem <;> exact (List.cons.inj hpath).1.trans (List.cons.inj hother).1.symm
          exact .inr ⟨rfl, ih.2 ⟨stem, last, x, y, p, q, hpath, hother, hearlier⟩⟩

/-! ### The paths of the search -/

theorem Goes.white {path : List String} (h : Goes graph start V targets path) : White graph start V targets path := by
  induction path generalizing V targets with
  | nil => trivial
  | cons key path ih =>
    obtain ⟨before, after, rfl, hfresh, hgoes⟩ := h
    refine ⟨by simp, hfresh.mono Set.subset_union_left, (ih hgoes).mono ?_⟩
    exact Set.insert_subset_insert Set.subset_union_left

/-- No simple path to the same key comes before one that the search goes along. -/
theorem Goes.not_before {path other : List String} (h : Goes graph start V targets path)
    (hother : White graph start V targets other) (hsame : other.getLast? = path.getLast?) :
    ¬ Before graph targets other path := by
  induction path generalizing V targets other with
  | nil => cases other <;> exact id
  | cons key path ih =>
    obtain ⟨before, after, rfl, hfresh, hgoes⟩ := h
    rcases other with _ | ⟨first, other⟩
    · exact id
    -- If something on the other path were reached from the targets before `key`, so would be its end.
    obtain ⟨last, hlast⟩ : ∃ last, (key :: path).getLast? = some last := ⟨_, List.getLast?_cons⟩
    have hnew : last ∉ Reach graph start V before := fun hreach =>
      (hgoes.white.last_fresh hfresh hlast).2 (.inr hreach)
    have haway := hother.notMem_reach hnew (hsame.trans hlast)
    rintro (hearlier | ⟨rfl, hbefore⟩)
    · have hkey : key ∉ before := fun hmem =>
        hfresh.2 (.inr (mem_reach_of_mem hmem (hfresh.mono Set.subset_union_left)))
      exact haway first List.mem_cons_self (mem_reach_of_mem (hearlier.append hkey) hother.2.1)
    · have hwhite : White graph start (insert first (V ∪ Reach graph start V before)) (successors graph first) other := by
        rw [← Set.insert_union]
        exact hother.2.2.union fun x hx => haway x (List.mem_cons_of_mem _ hx)
      refine ih hgoes hwhite ?_ hbefore
      rcases other with _ | ⟨x, other⟩
      · exact hbefore.elim
      rcases path with _ | ⟨y, path⟩
      · exact hbefore.elim
      simpa only [List.getLast?_cons_cons] using hsame

/-- The search goes along a simple path to a key if none comes before it. -/
theorem goes_of_not_before {path : List String} (h : White graph start V targets path)
    (hfirst : ∀ other, White graph start V targets other → other.getLast? = path.getLast? →
      ¬ Before graph targets other path) : Goes graph start V targets path := by
  induction path generalizing V targets with
  | nil => trivial
  | cons key path ih =>
    have ⟨htarget, hfresh, hwhite⟩ := h
    obtain ⟨before, after, rfl, hbefore⟩ := List.eq_append_cons_of_mem htarget
    obtain ⟨last, hlast⟩ : ∃ last, (key :: path).getLast? = some last := ⟨_, List.getLast?_cons⟩
    -- A simple path by which the end is reached from the targets before `key` would come before this one.
    have hnew : last ∉ Reach graph start V before := by
      intro hreach
      obtain ⟨source, hsource, other, hother, hend⟩ := exists_white_of_mem_reach hreach
      have hmore := hother.of_subset (List.subset_append_left before (key :: after))
      exact hfirst (source :: other) hmore (hend.trans hlast.symm) (.inl ⟨before, after, rfl, hbefore, hsource⟩)
    have haway := h.notMem_reach hnew hlast
    have hkey : Fresh start (V ∪ Reach graph start V before) key :=
      ⟨hfresh.1, fun hmem => hmem.elim hfresh.2 (haway key List.mem_cons_self)⟩
    refine ⟨before, after, rfl, hkey, ih ?_ ?_⟩
    · rw [← Set.insert_union]
      exact hwhite.union fun x hx => haway x (List.mem_cons_of_mem _ hx)
    · intro other hother hsame hbefore
      have hmono : insert key V ⊆ insert key (V ∪ Reach graph start V before) :=
        Set.insert_subset_insert Set.subset_union_left
      refine hfirst (key :: other) ⟨htarget, hfresh, hother.mono hmono⟩ ?_ (.inr ⟨rfl, hbefore⟩)
      rw [List.getLast?_cons, List.getLast?_cons, hsame]

/-- The search goes along the first of the simple paths to each key. -/
theorem goes_iff {path : List String} :
    Goes graph start V targets path ↔ White graph start V targets path ∧
      ∀ other, White graph start V targets other → other.getLast? = path.getLast? →
        ¬ Before graph targets other path :=
  ⟨fun h => ⟨h.white, fun _ => h.not_before⟩, fun ⟨h, hfirst⟩ => goes_of_not_before h hfirst⟩

end Lint

end Phrasebook
