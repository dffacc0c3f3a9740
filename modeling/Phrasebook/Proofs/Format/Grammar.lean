import Phrasebook.Format.Spec
import Phrasebook.Proofs.Except

/-!
# The grammar of format specs

`SpecWritten` says what a spec looks like, piece by piece, without saying how it is read.  Reading a piece gives the one
piece that is written at the front of a text (`piece?_eq_some_iff`).  So a spec is read exactly if it is written in the
grammar; otherwise the error stands at the first percent sign at which no piece is written
(`parse_reads_what_is_written`).
-/

namespace Phrasebook.Format

/-! ### What is written -/

/-- All of `run` is of a class of characters, and `rest`, which follows, does not go on with it. -/
structure LongestRun (p : Char → Bool) (run rest : List Char) : Prop where
  within : ∀ c ∈ run, p c = true
  ends : ∀ c ∈ rest.head?, p c = false

/-- The flag that a character stands for is set. -/
def Flags.has (flags : Flags) : Char → Bool
  | '-' => flags.leftAlign
  | '+' => flags.plusSign
  | ' ' => flags.spaceSign
  | '0' => flags.zeroPad
  | ',' => flags.grouping
  | '#' => flags.alternate
  | _ => false

/-- The letters that stand for a kind. -/
def Kind.letters : Kind → List Char
  | decimal => ['d', 'i']
  | hex false => ['x']
  | hex true => ['X']
  | octal => ['o']
  | fixed => ['f', 'F']
  | exponential false => ['e']
  | exponential true => ['E']
  | general false => ['g']
  | general true => ['G']
  | text => ['s']
  | upperText => ['S']
  | char => ['c']

/-- A number of 64 bits is written with all the digits before `rest`.  Without a digit there is no number. -/
structure NumberWritten (number : Option Nat) (digits rest : List Char) : Prop where
  longest : LongestRun Char.isDigit digits rest
  value : number = if digits = [] then none else some (Nat.ofDigitChars 10 digits 0)
  fits : ∀ n ∈ number, n < UInt64.size

/-- A precision is written before `rest`, with a point in front of its digits. -/
inductive PrecisionWritten : Option Nat → List Char → List Char → Prop
  | absent {rest : List Char} (ends : rest.head? ≠ some '.') : PrecisionWritten none [] rest
  | present {n : Nat} {digits rest : List Char} (number : NumberWritten (some n) digits rest) :
      PrecisionWritten (some n) ('.' :: digits) rest

/-- A conversion is written behind its percent sign: flags, width, precision, letter.  A zero in front of the width is
a flag, since the flags are the longest run. -/
inductive ConversionWritten (conversion : Conversion) : List Char → Prop
  | intro {flags width precision : List Char} {letter : Char}
      (longest : LongestRun isFlag flags (width ++ precision ++ [letter]))
      (flags_set : ∀ c, conversion.flags.has c = true ↔ c ∈ flags)
      (width_written : NumberWritten conversion.width width (precision ++ [letter]))
      (precision_written : PrecisionWritten conversion.precision precision [letter])
      (letter_written : letter ∈ conversion.kind.letters) :
      ConversionWritten conversion (flags ++ width ++ precision ++ [letter])

/-- A piece is written as a text, when `rest` follows.  Only for a run of other characters does it matter what
follows. -/
inductive PieceWritten (rest : List Char) : Piece → List Char → Prop
  | percent : PieceWritten rest (.literal "%") ['%', '%']
  | lineFeed : PieceWritten rest (.literal "\n") ['%', 'n']
  | run {text : List Char} (nonempty : text ≠ []) (longest : LongestRun (· != '%') text rest) :
      PieceWritten rest (.literal (String.ofList text)) text
  | conversion {conversion : Conversion} {text : List Char} (written : ConversionWritten conversion text) :
      PieceWritten rest (.conversion conversion) ('%' :: text)

/-- The pieces are written one after the other. -/
inductive SpecWritten : List Piece → List Char → Prop
  | nil : SpecWritten [] []
  | cons {piece : Piece} {pieces : List Piece} {text rest : List Char} (here : PieceWritten rest piece text)
      (more : SpecWritten pieces rest) : SpecWritten (piece :: pieces) (text ++ rest)

/-- Some piece is written at the front of the text. -/
def StartsPiece (text : List Char) : Prop :=
  ∃ piece front rest, text = front ++ rest ∧ PieceWritten rest piece front

/-- The text is a spec up to a percent sign at which no piece is written, and there is no such place before it. -/
structure BreaksOff (text before rest : List Char) : Prop where
  split : text = before ++ rest
  accepted : ∃ pieces, SpecWritten pieces before
  percent : rest.head? = some '%'
  stuck : ¬ StartsPiece rest
  first : ∀ earlier later, text = earlier ++ later → (∃ pieces, SpecWritten pieces earlier) →
    later.head? = some '%' → earlier.length < before.length → StartsPiece later

/-! ### Runs -/

section Runs

variable {p : Char → Bool} {run rest more : List Char}

theorem longestRun_takeWhile (p : Char → Bool) (text : List Char) :
    LongestRun p (text.takeWhile p) (text.dropWhile p) := by
  constructor
  · exact List.all_eq_true.1 List.all_takeWhile
  · intro c hc
    have hnot := List.head?_dropWhile_not p text
    rw [Option.mem_def.1 hc] at hnot
    exact hnot

theorem LongestRun.takeWhile_append (h : LongestRun p run rest) : (run ++ rest).takeWhile p = run := by
  rw [List.takeWhile_append_of_pos h.within]
  cases rest with
  | nil => simp
  | cons c rest => simp [h.ends c rfl]

theorem LongestRun.dropWhile_append (h : LongestRun p run rest) : (run ++ rest).dropWhile p = rest := by
  rw [List.dropWhile_append_of_pos h.within]
  cases rest with
  | nil => simp
  | cons c rest => simp [h.ends c rfl]

/-- Only the next character matters. -/
theorem longestRun_append_iff (hrest : rest ≠ []) : LongestRun p run (rest ++ more) ↔ LongestRun p run rest := by
  obtain ⟨c, tail, rfl⟩ := List.exists_cons_of_ne_nil hrest
  exact ⟨fun h => ⟨h.within, h.ends⟩, fun h => ⟨h.within, h.ends⟩⟩

end Runs

/-! ### Parts of a conversion -/

private theorem has_ofChars {run : List Char} (h : ∀ c ∈ run, isFlag c = true) (c : Char) :
    (Flags.ofChars run).has c = true ↔ c ∈ run := by
  unfold Flags.has
  split
  all_goals try exact List.contains_iff_mem
  next hminus hplus hblank hzero hcomma hhash =>
    refine ⟨nofun, fun hmem => ?_⟩
    have hflag := h c hmem
    simp only [isFlag, Bool.or_eq_true, beq_iff_eq] at hflag
    grind

private theorem eq_ofChars {flags : Flags} {run : List Char} (h : ∀ c, flags.has c = true ↔ c ∈ run) :
    flags = Flags.ofChars run := by
  have hhas : ∀ c, flags.has c = run.contains c := by
    intro c
    rw [Bool.eq_iff_iff, h c, List.contains_iff_mem]
  simp only [Flags.ofChars, ← hhas]
  rfl

theorem ofLetter?_eq_some_iff {letter : Char} {kind : Kind} :
    Kind.ofLetter? letter = some kind ↔ letter ∈ kind.letters := by
  constructor
  · intro h
    unfold Kind.ofLetter? at h
    split at h
    all_goals cases h
    all_goals decide
  · intro h
    cases kind with
    | decimal | octal | fixed | text | upperText | char =>
      simp only [Kind.letters, List.mem_cons, List.not_mem_nil, or_false] at h
      rcases h with rfl | rfl <;> rfl
    | hex upper | exponential upper | general upper =>
      cases upper with
      | false | true =>
        obtain rfl := List.mem_singleton.1 h
        rfl

private theorem number?_eq_some_iff {digits : List Char} {n : Nat} :
    number? digits = some n ↔ n = Nat.ofDigitChars 10 digits 0 ∧ n < UInt64.size := by
  have hsize : 1 <<< 64 = UInt64.size := by decide
  unfold number?
  dsimp only
  rw [hsize]
  split <;> grind

theorem width?_eq_some_iff {text rest : List Char} {width : Option Nat} :
    width? text = some (width, rest) ↔ ∃ digits, text = digits ++ rest ∧ NumberWritten width digits rest := by
  unfold width?
  dsimp only
  constructor
  · intro h
    have hlongest := longestRun_takeWhile Char.isDigit text
    refine ⟨text.takeWhile Char.isDigit, ?_⟩
    split at h
    · next hnone =>
      obtain ⟨rfl, rfl⟩ := Prod.mk.inj (Option.some.inj h)
      have hsplit := List.takeWhile_append_dropWhile (p := Char.isDigit) (l := text)
      rw [hnone, List.nil_append] at hsplit
      rw [hnone, hsplit] at hlongest
      exact ⟨by rw [hnone, List.nil_append], by rwa [hnone], by rw [if_pos hnone], nofun⟩
    · next hsome =>
      obtain ⟨n, hn, heq⟩ := Option.map_eq_some_iff.1 h
      obtain ⟨rfl, rfl⟩ := Prod.mk.inj heq
      obtain ⟨hvalue, hfits⟩ := number?_eq_some_iff.1 hn
      exact ⟨List.takeWhile_append_dropWhile.symm, hlongest, by rw [if_neg hsome, hvalue], by simpa using hfits⟩
  · rintro ⟨digits, rfl, hlongest, hvalue, hfits⟩
    rw [hlongest.takeWhile_append, hlongest.dropWhile_append]
    split
    · next hnone => simp [hvalue, hnone]
    · next hsome =>
      rw [if_neg hsome] at hvalue
      exact Option.map_eq_some_iff.2 ⟨_, number?_eq_some_iff.2 ⟨rfl, hfits _ (by simp [hvalue])⟩, by rw [hvalue]⟩

theorem precision?_eq_some_iff {text rest : List Char} {precision : Option Nat} :
    precision? text = some (precision, rest) ↔
      ∃ written, text = written ++ rest ∧ PrecisionWritten precision written rest := by
  constructor
  · intro h
    unfold precision? at h
    split at h
    · next tail =>
      -- Behind the point stands a number as in front of it, but it must not be missing.
      have hnumber : ∃ n, precision = some n ∧ width? tail = some (some n, rest) := by
        unfold width?
        dsimp only at h ⊢
        split at h
        · cases h
        · next hsome =>
          obtain ⟨n, hn, heq⟩ := Option.map_eq_some_iff.1 h
          obtain ⟨rfl, rfl⟩ := Prod.mk.inj heq
          exact ⟨n, rfl, by rw [if_neg hsome, hn]; rfl⟩
      obtain ⟨n, rfl, hwidth⟩ := hnumber
      obtain ⟨digits, rfl, hwritten⟩ := width?_eq_some_iff.1 hwidth
      exact ⟨'.' :: digits, rfl, .present hwritten⟩
    · next hpoint =>
      obtain ⟨rfl, rfl⟩ := Prod.mk.inj (Option.some.inj h)
      refine ⟨[], rfl, .absent fun hhead => ?_⟩
      obtain ⟨tail, rfl⟩ := List.head?_eq_some_iff.1 hhead
      exact hpoint tail rfl
  · rintro ⟨written, rfl, hwritten⟩
    cases hwritten with
    | absent hpoint =>
      rw [List.nil_append]
      unfold precision?
      split
      · exact absurd rfl hpoint
      · rfl
    | @present n digits _ hnumber =>
      have hsome : digits ≠ [] := by
        rintro rfl
        cases hnumber.value
      have hvalue : n = Nat.ofDigitChars 10 digits 0 := by simpa [hsome] using hnumber.value
      rw [List.cons_append, precision?, hnumber.longest.takeWhile_append, hnumber.longest.dropWhile_append, if_neg hsome]
      exact Option.map_eq_some_iff.2 ⟨n, number?_eq_some_iff.2 ⟨hvalue, hnumber.fits n rfl⟩, rfl⟩

theorem numberWritten_append_iff {number : Option Nat} {digits rest more : List Char} (hrest : rest ≠ []) :
    NumberWritten number digits (rest ++ more) ↔ NumberWritten number digits rest := by
  constructor
  · rintro ⟨hlongest, hvalue, hfits⟩
    exact ⟨(longestRun_append_iff hrest).1 hlongest, hvalue, hfits⟩
  · rintro ⟨hlongest, hvalue, hfits⟩
    exact ⟨(longestRun_append_iff hrest).2 hlongest, hvalue, hfits⟩

theorem precisionWritten_append_iff {precision : Option Nat} {written rest more : List Char} (hrest : rest ≠ []) :
    PrecisionWritten precision written (rest ++ more) ↔ PrecisionWritten precision written rest := by
  have hhead : (rest ++ more).head? = rest.head? := by
    obtain ⟨c, tail, rfl⟩ := List.exists_cons_of_ne_nil hrest
    rfl
  constructor
  · rintro (hpoint | hnumber)
    · exact .absent (hhead ▸ hpoint)
    · exact .present ((numberWritten_append_iff hrest).1 hnumber)
  · rintro (hpoint | hnumber)
    · exact .absent (hhead.symm ▸ hpoint)
    · exact .present ((numberWritten_append_iff hrest).2 hnumber)

theorem conversion?_eq_some_iff {text rest : List Char} {conversion : Conversion} :
    conversion? text = some (conversion, rest) ↔
      ∃ front, text = front ++ rest ∧ ConversionWritten conversion front := by
  unfold conversion?
  simp only [Option.bind_eq_bind, Option.bind_eq_some_iff, Prod.exists, width?_eq_some_iff, precision?_eq_some_iff]
  constructor
  · rintro ⟨width, afterWidth, ⟨digits, hsplit, hwidth⟩, precision, afterPrecision, ⟨written, rfl, hprecision⟩, h⟩
    split at h
    · cases h
    · next letter rest' =>
      obtain ⟨kind, hkind, heq⟩ := Option.bind_eq_some_iff.1 h
      obtain ⟨rfl, rfl⟩ := Prod.mk.inj (Option.some.inj heq)
      have hlongest := longestRun_takeWhile isFlag text
      have hjoin : digits ++ (written ++ letter :: rest') = digits ++ written ++ [letter] ++ rest' := by simp
      rw [hsplit, hjoin, longestRun_append_iff (by simp)] at hlongest
      rw [List.append_cons, numberWritten_append_iff (by simp)] at hwidth
      rw [← List.singleton_append, precisionWritten_append_iff (by simp)] at hprecision
      refine ⟨text.takeWhile isFlag ++ digits ++ written ++ [letter], ?_,
        .intro hlongest (has_ofChars hlongest.within) hwidth hprecision (ofLetter?_eq_some_iff.1 hkind)⟩
      calc text = text.takeWhile isFlag ++ text.dropWhile isFlag := List.takeWhile_append_dropWhile.symm
        _ = text.takeWhile isFlag ++ digits ++ written ++ [letter] ++ rest' := by rw [hsplit, hjoin]; simp
  · rintro ⟨front, rfl, hwritten⟩
    obtain ⟨flags, width, precision, kind⟩ := conversion
    obtain @⟨run, digits, written, letter, hlongest, hflags, hwidth, hprecision, hletter⟩ := hwritten
    have hjoin : run ++ digits ++ written ++ [letter] ++ rest = run ++ (digits ++ written ++ [letter] ++ rest) := by
      simp
    rw [← longestRun_append_iff (by simp)] at hlongest
    rw [hjoin, hlongest.takeWhile_append, hlongest.dropWhile_append]
    refine ⟨width, written ++ [letter] ++ rest, ⟨digits, by simp, (numberWritten_append_iff (by simp)).2 hwidth⟩,
      precision, [letter] ++ rest, ⟨written, by simp, (precisionWritten_append_iff (by simp)).2 hprecision⟩, ?_⟩
    obtain rfl : flags = Flags.ofChars run := eq_ofChars hflags
    exact Option.bind_eq_some_iff.2 ⟨kind, ofLetter?_eq_some_iff.2 hletter, rfl⟩

/-! ### Pieces -/

private theorem conversion?_percent (tail : List Char) : conversion? ('%' :: tail) = none := rfl

private theorem conversion?_n (tail : List Char) : conversion? ('n' :: tail) = none := rfl

private theorem piece?_of_conversion? {text rest : List Char} {conversion : Conversion}
    (h : conversion? text = some (conversion, rest)) : piece? ('%' :: text) = some (.conversion conversion, rest) := by
  unfold piece?
  split
  · next heq => cases heq
  · next tail heq =>
    rw [(List.cons.inj heq).2, conversion?_percent] at h
    cases h
  · next tail heq =>
    rw [(List.cons.inj heq).2, conversion?_n] at h
    cases h
  · next tail _ _ heq => rw [← (List.cons.inj heq).2, h, Option.map_some]
  · next c tail _ _ hpercent heq => exact absurd (List.cons.inj heq).1.symm hpercent

/-- The piece that is read is the one that is written. -/
theorem piece?_eq_some_iff {text rest : List Char} {piece : Piece} :
    piece? text = some (piece, rest) ↔ ∃ front, text = front ++ rest ∧ PieceWritten rest piece front := by
  constructor
  · intro h
    unfold piece? at h
    split at h
    · cases h
    · obtain ⟨rfl, rfl⟩ := Prod.mk.inj (Option.some.inj h)
      exact ⟨['%', '%'], rfl, .percent⟩
    · obtain ⟨rfl, rfl⟩ := Prod.mk.inj (Option.some.inj h)
      exact ⟨['%', 'n'], rfl, .lineFeed⟩
    · obtain ⟨⟨conversion, rest'⟩, hconversion, heq⟩ := Option.map_eq_some_iff.1 h
      obtain ⟨rfl, rfl⟩ := Prod.mk.inj heq
      obtain ⟨front, rfl, hwritten⟩ := conversion?_eq_some_iff.1 hconversion
      exact ⟨'%' :: front, rfl, .conversion hwritten⟩
    · next c tail _ _ hpercent =>
      obtain ⟨rfl, rfl⟩ := Prod.mk.inj (Option.some.inj h)
      have hc : (c != '%') = true := by
        rw [bne_iff_ne]
        rintro rfl
        exact hpercent rfl
      have hlongest := longestRun_takeWhile (· != '%') (c :: tail)
      rw [List.takeWhile_cons_of_pos (p := (· != '%')) hc, List.dropWhile_cons_of_pos (p := (· != '%')) hc] at hlongest
      exact ⟨_, by rw [List.cons_append, List.takeWhile_append_dropWhile], .run (List.cons_ne_nil _ _) hlongest⟩
  · rintro ⟨front, rfl, hwritten⟩
    cases hwritten with
    | percent => rfl
    | lineFeed => rfl
    | run hnonempty hlongest =>
      obtain ⟨c, tail, rfl⟩ := List.exists_cons_of_ne_nil hnonempty
      have hc : (c != '%') = true := hlongest.within c List.mem_cons_self
      have htake := hlongest.takeWhile_append
      have hdrop := hlongest.dropWhile_append
      rw [List.cons_append, List.takeWhile_cons_of_pos (p := (· != '%')) hc] at htake
      rw [List.cons_append, List.dropWhile_cons_of_pos (p := (· != '%')) hc] at hdrop
      unfold piece?
      split <;> simp_all
    | @conversion conversion text hwritten =>
      have hread : conversion? (text ++ rest) = some (conversion, rest) :=
        conversion?_eq_some_iff.2 ⟨text, rfl, hwritten⟩
      exact piece?_of_conversion? hread

theorem not_startsPiece_iff {text : List Char} : ¬ StartsPiece text ↔ piece? text = none := by
  rw [Option.eq_none_iff_forall_ne_some]
  constructor
  · rintro h ⟨piece, rest⟩ hpiece
    obtain ⟨front, rfl, hwritten⟩ := piece?_eq_some_iff.1 hpiece
    exact h ⟨piece, front, rest, rfl, hwritten⟩
  · rintro h ⟨piece, front, rest, rfl, hwritten⟩
    exact h (piece, rest) (piece?_eq_some_iff.2 ⟨front, rfl, hwritten⟩)

/-- Text that does not begin with a percent sign begins with a run. -/
theorem eq_percent_of_not_startsPiece {text : List Char} (h : ¬ StartsPiece text) : ∀ c ∈ text.head?, c = '%' := by
  intro c hc
  obtain ⟨tail, rfl⟩ := List.head?_eq_some_iff.1 hc
  refine Decidable.byContradiction fun hne => h ?_
  have hplain : (c != '%') = true := bne_iff_ne.2 hne
  refine ⟨_, _, _, List.takeWhile_append_dropWhile.symm, .run ?_ (longestRun_takeWhile (· != '%') (c :: tail))⟩
  rw [List.takeWhile_cons_of_pos (p := (· != '%')) hplain]
  exact List.cons_ne_nil _ _

/-- It makes no difference to a piece whether a spec ends or a percent sign follows. -/
theorem pieceWritten_append_iff {piece : Piece} {text rest more : List Char} (hmore : ∀ c ∈ more.head?, c = '%') :
    PieceWritten (rest ++ more) piece text ↔ PieceWritten rest piece text := by
  have hrun : ∀ run, LongestRun (· != '%') run (rest ++ more) ↔ LongestRun (· != '%') run rest := by
    intro run
    rcases rest with _ | ⟨c, rest⟩
    · exact ⟨fun h => ⟨h.within, nofun⟩, fun h => ⟨h.within, fun c hc => by simp [hmore c hc]⟩⟩
    · exact longestRun_append_iff (List.cons_ne_nil _ _)
  constructor
  · rintro (_ | _ | ⟨hnonempty, hlongest⟩ | hwritten)
    · exact .percent
    · exact .lineFeed
    · exact .run hnonempty ((hrun _).1 hlongest)
    · exact .conversion hwritten
  · rintro (_ | _ | ⟨hnonempty, hlongest⟩ | hwritten)
    · exact .percent
    · exact .lineFeed
    · exact .run hnonempty ((hrun _).2 hlongest)
    · exact .conversion hwritten

/-! ### Specs -/

/-- Reading takes the pieces that are written, up to the end or to a percent sign at which there is none. -/
theorem pieces_eq_iff {text rest : List Char} {ps : List Piece} :
    pieces text = (ps, rest) ↔
      ∃ front, text = front ++ rest ∧ SpecWritten ps front ∧ ¬ StartsPiece rest := by
  constructor
  · intro h
    fun_induction pieces text generalizing ps rest with
    | case1 text hnone =>
      obtain ⟨rfl, rfl⟩ := Prod.mk.inj h
      exact ⟨[], rfl, .nil, not_startsPiece_iff.2 hnone⟩
    | case2 text piece tail hpiece more left hmore ih =>
      obtain ⟨rfl, rfl⟩ := Prod.mk.inj h
      obtain ⟨here, rfl, hhere⟩ := piece?_eq_some_iff.1 hpiece
      obtain ⟨front, rfl, hwritten, hstuck⟩ := ih hmore
      refine ⟨here ++ front, by rw [List.append_assoc], .cons ?_ hwritten, hstuck⟩
      exact (pieceWritten_append_iff (eq_percent_of_not_startsPiece hstuck)).1 hhere
  · rintro ⟨front, rfl, hwritten, hstuck⟩
    induction hwritten with
    | nil =>
      have hnone : piece? rest = none := not_startsPiece_iff.1 hstuck
      rw [List.nil_append, pieces]
      split <;> simp_all
    | @cons piece ps text front hhere hmore ih =>
      have hpiece : piece? (text ++ (front ++ rest)) = some (piece, front ++ rest) :=
        piece?_eq_some_iff.2
          ⟨text, rfl, (pieceWritten_append_iff (eq_percent_of_not_startsPiece hstuck)).2 hhere⟩
      rw [List.append_assoc, pieces]
      split <;> simp_all

theorem parse_eq_ok_iff {spec : String} {ps : List Piece} : parse spec = .ok ps ↔ SpecWritten ps spec.toList := by
  have hread : SpecWritten ps spec.toList ↔ pieces spec.toList = (ps, []) := by
    have hend : ¬ StartsPiece [] := not_startsPiece_iff.2 rfl
    simp [pieces_eq_iff, hend]
  rw [hread]
  unfold parse
  dsimp only
  split
  · next hrest => simp [Prod.ext_iff, hrest]
  · next hrest => simp [Prod.ext_iff, hrest]

/-- What reading leaves is where the spec breaks off. -/
theorem exists_breaksOff_iff {text rest : List Char} :
    (∃ before, BreaksOff text before rest) ↔ rest ≠ [] ∧ ∃ ps, pieces text = (ps, rest) := by
  constructor
  · rintro ⟨before, hsplit, ⟨ps, hwritten⟩, hpercent, hstuck, -⟩
    refine ⟨?_, ps, pieces_eq_iff.2 ⟨before, hsplit, hwritten, hstuck⟩⟩
    rintro rfl
    cases hpercent
  · rintro ⟨hne, ps, hpieces⟩
    obtain ⟨before, rfl, hwritten, hstuck⟩ := pieces_eq_iff.1 hpieces
    obtain ⟨c, tail, rfl⟩ := List.exists_cons_of_ne_nil hne
    have hpercent : c = '%' := eq_percent_of_not_startsPiece hstuck c rfl
    refine ⟨before, rfl, ⟨ps, hwritten⟩, by rw [hpercent]; rfl, hstuck, ?_⟩
    rintro earlier later hsplit ⟨ps', hwritten'⟩ - hlength
    -- Otherwise reading would stop at the earlier place.
    refine Classical.byContradiction fun hstuck' => ?_
    have hpieces' := pieces_eq_iff.2 ⟨earlier, hsplit, hwritten', hstuck'⟩
    obtain ⟨-, rfl⟩ := Prod.mk.inj (hpieces.symm.trans hpieces')
    rw [List.append_cancel_right hsplit] at hlength
    exact Nat.lt_irrefl _ hlength

theorem parse_eq_error_iff {spec : String} {error : SpecError} :
    parse spec = .error error ↔
      ∃ before rest, BreaksOff spec.toList before rest ∧ error = ⟨spec, String.ofList rest⟩ := by
  rw [exists_comm]
  simp only [exists_and_right, exists_breaksOff_iff]
  unfold parse
  dsimp only
  split
  · next hrest => simp [Prod.ext_iff, hrest]
  · next hrest =>
    constructor
    · intro h
      exact ⟨_, ⟨hrest, _, rfl⟩, (Except.error.inj h).symm⟩
    · rintro ⟨_, ⟨-, _, hpieces⟩, rfl⟩
      rw [hpieces]

/-- The place of an error is behind the bytes before it. -/
theorem column_eq {spec : String} {before rest : List Char} (h : spec.toList = before ++ rest) :
    SpecError.column ⟨spec, String.ofList rest⟩ = 1 + (String.ofList before).utf8ByteSize := by
  have hspec : spec = String.ofList before ++ String.ofList rest := by
    rw [← String.ofList_append, ← h, String.ofList_toList]
  have hsize : spec.utf8ByteSize = (String.ofList before).utf8ByteSize + (String.ofList rest).utf8ByteSize := by
    rw [hspec, String.utf8ByteSize_append]
  unfold SpecError.column
  dsimp only
  omega

/-- A spec is read into the pieces that are written, if it is written in the grammar.  Otherwise the error stands at the
byte of the percent sign where it breaks off. -/
theorem parse_reads_what_is_written (spec : String) :
    (∀ pieces, parse spec = .ok pieces ↔ SpecWritten pieces spec.toList) ∧
    ∀ error, parse spec = .error error ↔ ∃ before rest, BreaksOff spec.toList before rest ∧
      error = ⟨spec, String.ofList rest⟩ ∧ error.column = 1 + (String.ofList before).utf8ByteSize := by
  refine ⟨fun pieces => parse_eq_ok_iff, fun error => parse_eq_error_iff.trans ?_⟩
  refine exists_congr fun before => exists_congr fun rest => and_congr_right fun hbreaks => ?_
  refine ⟨?_, And.left⟩
  rintro rfl
  exact ⟨rfl, column_eq hbreaks.split⟩

/-- Columns count bytes, and the percent sign of an escape does not start a piece of its own. -/
example : (parse "é%%%q").mapError SpecError.column = .error 5 := by decide +kernel

end Phrasebook.Format
