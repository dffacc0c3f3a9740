import Mathlib.Data.List.Perm.Subperm
import Phrasebook.Proofs.Suggestion.Edits

/-!
# The nearest names

Sorting by a number keeps the order of what has the same number (`filter_mergeSort`), so what is suggested are the first
three of the available names at distance one followed by those at distance two, if the limit is two
(`suggest_eq_take_ranked`).  The limit goes by the bytes of a name; it is the one that goes by its characters just if a
name of at most three characters has at most three bytes (`nearest_are_suggested`, `bytes_counted_for_characters`).
-/

namespace Phrasebook.Suggestion

/-! ### Sorting by a number -/

variable {α : Type} {key : α → Nat}

theorem filter_mergeSort (key : α → Nat) (l : List α) (k : Nat) :
    (l.mergeSort fun a b => key a ≤ key b).filter (key · = k) = l.filter (key · = k) := by
  have htrans : ∀ a b c : α, decide (key a ≤ key b) = true → decide (key b ≤ key c) = true →
      decide (key a ≤ key c) = true := by
    simp only [decide_eq_true_eq]
    exact fun _ _ _ => Nat.le_trans
  have htotal : ∀ a b : α, (decide (key a ≤ key b) || decide (key b ≤ key a)) = true := by
    simp only [Bool.or_eq_true, decide_eq_true_eq]
    exact fun _ _ => Nat.le_total _ _
  have hequal : (l.filter (key · = k)).Pairwise fun a b => decide (key a ≤ key b) = true := by
    refine List.pairwise_of_forall_mem_list fun a ha b hb => ?_
    simp only [List.mem_filter, decide_eq_true_eq] at ha hb ⊢
    omega
  -- What has this number is in order already, so the sorted list holds it in this order, and nothing else with it.
  have hsublist := (List.sublist_mergeSort htrans htotal hequal List.filter_sublist).filter (key · = k)
  simp only [List.filter_filter, Bool.and_self] at hsublist
  exact (hsublist.eq_of_length ((List.mergeSort_perm l _).filter _).length_eq.symm).symm

private theorem filter_append_filter_not {l : List α} (h : l.Pairwise (key · ≤ key ·)) {first : Nat}
    (hkeys : ∀ a ∈ l, first ≤ key a) : l.filter (key · = first) ++ l.filter (! key · = first) = l := by
  induction l with
  | nil => rfl
  | cons a l ih =>
    obtain ⟨hleast, hrest⟩ := List.pairwise_cons.1 h
    obtain ⟨ha, hkeys⟩ := List.forall_mem_cons.1 hkeys
    by_cases heq : key a = first
    · rw [List.filter_cons_of_pos (by simpa using heq), List.filter_cons_of_neg (by simpa using heq),
        List.cons_append, ih hrest hkeys]
    · -- All that follows has at least this number, so none of it has the first one.
      have hnone : ∀ b ∈ a :: l, key b ≠ first := by
        refine List.forall_mem_cons.2 ⟨heq, fun b hb => ?_⟩
        have hle := hleast b hb
        omega
      rw [List.filter_eq_nil_iff.2 (by simpa using hnone), List.nil_append, List.filter_eq_self]
      simpa using hnone

/-- What is sorted by a number comes number by number. -/
theorem eq_flatMap_filter {l : List α} (h : l.Pairwise (key · ≤ key ·)) {first count : Nat}
    (hkeys : ∀ a ∈ l, first ≤ key a ∧ key a < first + count) :
    l = (List.range' first count).flatMap fun k => l.filter (key · = k) := by
  induction count generalizing first l with
  | zero =>
    refine List.eq_nil_iff_forall_not_mem.2 fun a ha => ?_
    have hkey := hkeys a ha
    omega
  | succ count ih =>
    have hsplit := filter_append_filter_not h fun a ha => (hkeys a ha).1
    have hlater : ∀ a ∈ l.filter (! key · = first), first + 1 ≤ key a ∧ key a < first + 1 + count := by
      intro a ha
      obtain ⟨ha, hne⟩ := List.mem_filter.1 ha
      have hkey := hkeys a ha
      simp only [Bool.not_eq_true', decide_eq_false_iff_not] at hne
      omega
    have hrest := ih (h.sublist List.filter_sublist) hlater
    rw [List.range'_succ, List.flatMap_cons]
    conv_lhs => rw [← hsplit, hrest]
    refine congrArg _ (List.flatMap_congr fun k hk => ?_)
    -- The numbers from the next one on are different from the first.
    rw [List.filter_filter]
    refine List.filter_congr fun a _ => ?_
    have hne := (List.mem_range'_1.1 hk).1
    rw [Bool.eq_iff_iff]
    simp only [Bool.and_eq_true, decide_eq_true_eq, Bool.not_eq_true', decide_eq_false_iff_not]
    omega

/-! ### Names by distance -/

/-- The names at distance one, two and so on up to the limit, each time in the order in which they are available. -/
def ranked (limit : Nat) (name : String) (available : List String) : List String :=
  (List.range' 1 limit).flatMap fun d => available.filter fun candidate => distance name.toList candidate.toList = d

variable {name : String} {available : List String}

/-- A candidate within the limit, with its distance. -/
def near? (name candidate : String) : Option (Nat × String) :=
  let d := distance name.toList candidate.toList
  if 0 < d ∧ d ≤ limit name then some (d, candidate) else none

theorem near?_eq_some_iff {candidate : String} {pair : Nat × String} :
    near? name candidate = some pair ↔ (0 < pair.1 ∧ pair.1 ≤ limit name) ∧
      pair = (distance name.toList candidate.toList, candidate) := by
  unfold near?
  dsimp only
  split
  · next h =>
    constructor
    · intro hpair
      obtain rfl := Option.some.inj hpair
      exact ⟨h, rfl⟩
    · rintro ⟨-, rfl⟩
      rfl
  · next h =>
    constructor
    · nofun
    · rintro ⟨hnear, rfl⟩
      exact absurd hnear h

private theorem map_snd_filter_near? {d : Nat} (hd : 1 ≤ d ∧ d < 1 + limit name) :
    ((available.filterMap (near? name)).filter (·.1 = d)).map Prod.snd =
      available.filter fun candidate => distance name.toList candidate.toList = d := by
  induction available with
  | nil => rfl
  | cons candidate available ih =>
    rw [List.filter_cons, ← ih, List.filterMap_cons]
    cases hnear : near? name candidate with
    | none =>
      have hne : distance name.toList candidate.toList ≠ d := by
        rintro rfl
        have hsome := near?_eq_some_iff.2
          ⟨(by omega : 0 < (distance name.toList candidate.toList, candidate).1 ∧ _), rfl⟩
        rw [hnear] at hsome
        cases hsome
      rw [if_neg (by simpa using hne)]
    | some pair =>
      obtain ⟨-, rfl⟩ := near?_eq_some_iff.1 hnear
      dsimp only
      rw [List.filter_cons]
      dsimp only
      split <;> rfl

theorem suggest_eq_take_ranked (name : String) (available : List String) :
    suggest name available = (ranked (limit name) name available).take maxCount := by
  have hpairwise : ((available.filterMap (near? name)).mergeSort fun a b => a.1 ≤ b.1).Pairwise (·.1 ≤ ·.1) := by
    refine (List.pairwise_mergeSort (fun a b c => ?_) (fun a b => ?_) _).imp of_decide_eq_true
    · simpa only [decide_eq_true_eq] using Nat.le_trans
    · simpa only [Bool.or_eq_true, decide_eq_true_eq] using Nat.le_total _ _
  have hkeys : ∀ pair ∈ (available.filterMap (near? name)).mergeSort fun a b => a.1 ≤ b.1,
      1 ≤ pair.1 ∧ pair.1 < 1 + limit name := by
    intro pair hpair
    obtain ⟨candidate, -, hnear⟩ := List.mem_filterMap.1 (List.mem_mergeSort.1 hpair)
    have hbounds := (near?_eq_some_iff.1 hnear).1
    omega
  have hsorted := eq_flatMap_filter hpairwise hkeys
  simp only [filter_mergeSort Prod.fst] at hsorted
  show (((available.filterMap (near? name)).mergeSort fun a b => a.1 ≤ b.1).take maxCount).map Prod.snd = _
  rw [List.map_take, hsorted, List.map_flatMap, ranked]
  refine congrArg _ (List.flatMap_congr fun d hd => ?_)
  exact map_snd_filter_near? (List.mem_range'_1.1 hd)

private theorem sublist_map_snd_near? (name : String) (available : List String) :
    ((available.filterMap (near? name)).map Prod.snd).Sublist available := by
  induction available with
  | nil => exact List.Sublist.slnil
  | cons candidate available ih =>
    rw [List.filterMap_cons]
    cases hnear : near? name candidate with
    | none => exact ih.cons candidate
    | some pair =>
      obtain ⟨-, rfl⟩ := near?_eq_some_iff.1 hnear
      exact ih.cons_cons candidate

/-- Nothing is suggested that is not available, or more often than it is. -/
theorem suggest_subperm (name : String) (available : List String) : (suggest name available).Subperm available := by
  have hperm : (((available.filterMap (near? name)).mergeSort fun a b => a.1 ≤ b.1).map Prod.snd).Perm
      ((available.filterMap (near? name)).map Prod.snd) := (List.mergeSort_perm _ _).map Prod.snd
  have htake : (suggest name available).Sublist
      (((available.filterMap (near? name)).mergeSort fun a b => a.1 ≤ b.1).map Prod.snd) :=
    (List.take_sublist maxCount _).map Prod.snd
  exact htake.subperm.trans (hperm.subperm.trans (sublist_map_snd_near? name available).subperm)

/-- A name is never suggested for itself. -/
theorem notMem_suggest (name : String) (available : List String) : name ∉ suggest name available := by
  intro hmem
  rw [suggest_eq_take_ranked] at hmem
  obtain ⟨d, hd, hname⟩ := List.mem_flatMap.1 (List.mem_of_mem_take hmem)
  have hdistance := of_decide_eq_true (List.mem_filter.1 hname).2
  have hnone := (isLeast_distance name.toList name.toList).2 (Edits.refl _)
  have hpos := (List.mem_range'_1.1 hd).1
  omega

theorem length_suggest_le (name : String) (available : List String) : (suggest name available).length ≤ 3 := by
  rw [suggest_eq_take_ranked]
  exact List.length_take_le maxCount _

/-! ### Bytes and characters -/

/-- The limit if a name is measured by its characters. -/
def characterLimit (name : String) : Nat :=
  if name.length ≤ 3 then 1 else 2

theorem length_le_utf8ByteSize (s : String) : s.length ≤ s.utf8ByteSize := by
  induction s using String.push_induction with
  | empty => decide
  | push s c ih =>
    have hpos := c.utf8Size_pos
    rw [String.length_push, String.utf8ByteSize_push]
    omega

theorem limit_eq_characterLimit_iff :
    limit name = characterLimit name ↔ (name.length ≤ 3 → name.utf8ByteSize ≤ 3) := by
  have hle := length_le_utf8ByteSize name
  unfold limit characterLimit
  split <;> split <;> omega

/-- Two more characters at its end make a text at distance two. -/
private theorem distance_append_pair (as : List Char) (c d : Char) : distance as (as ++ [c, d]) = 2 := by
  obtain ⟨hedits, hleast⟩ := isLeast_distance as (as ++ [c, d])
  have hlonger := Edits.length_le hedits
  have hinserted : Edits 2 as (as ++ [c, d]) := by
    have hfirst : Edit as (as ++ [d]) := by simpa using Edit.insert as [] d
    exact .step hfirst (.step (.insert as [d] c) (.refl _))
  have hmost := hleast hinserted
  rw [List.length_append, List.length_cons, List.length_singleton] at hlonger
  omega

private theorem ranked_append_pair (name : String) :
    ranked 1 name [name ++ "ab"] = [] ∧ ranked 2 name [name ++ "ab"] = [name ++ "ab"] := by
  have hdistance : distance name.toList (name.toList ++ ['a', 'b']) = 2 := distance_append_pair _ 'a' 'b'
  simp [ranked, List.range', List.filter_cons, hdistance]

/-- The distance is the least number of characters to insert, delete and replace.  Suggested are the first three of the
available names by distance from one up to the limit, those at one distance as they are available.  The limit is that
for a name measured by its characters, unless a name of at most three characters has more than three bytes. -/
theorem nearest_are_suggested (name : String) :
    (∀ as bs, IsLeast {n | Edits n as bs} (distance as bs)) ∧
      (∀ available, suggest name available = (ranked (limit name) name available).take 3) ∧
      ((∀ available, suggest name available = (ranked (characterLimit name) name available).take 3) ↔
        (name.length ≤ 3 → name.utf8ByteSize ≤ 3)) := by
  refine ⟨isLeast_distance, suggest_eq_take_ranked name, ?_⟩
  rw [← limit_eq_characterLimit_iff]
  constructor
  · intro hsame
    by_contra hne
    obtain ⟨hone, htwo⟩ := ranked_append_pair name
    have hsuggest := hsame [name ++ "ab"]
    rw [suggest_eq_take_ranked] at hsuggest
    have hlimit : limit name = 1 ∨ limit name = 2 := by
      unfold limit
      split <;> simp
    have hcharacters : characterLimit name = 1 ∨ characterLimit name = 2 := by
      unfold characterLimit
      split <;> simp
    have hlimits : limit name = 1 ∧ characterLimit name = 2 ∨ limit name = 2 ∧ characterLimit name = 1 := by omega
    rcases hlimits with ⟨hlimit, hcharacters⟩ | ⟨hlimit, hcharacters⟩ <;>
      rw [hlimit, hcharacters, hone, htwo] at hsuggest <;> cases hsuggest
  · intro hsame available
    rw [← hsame]
    exact suggest_eq_take_ranked name available

/-- Three characters in five bytes, for which a name at distance two is suggested. -/
theorem bytes_counted_for_characters :
    "été".length = 3 ∧ "été".utf8ByteSize = 5 ∧ suggest "été" ["ete"] = ["ete"] ∧
      (ranked (characterLimit "été") "été" ["ete"]).take 3 = [] := by
  decide +kernel

end Phrasebook.Suggestion
