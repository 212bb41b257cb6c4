import Mathlib.Algebra.Order.Group.Int
import SimulAvr.Lib.Ranges

/-!
# Dumps in lines

A dump lists the cells of a range in lines of `d` cells.  A line that repeats the last one is
left out, a mark stands for such lines, and a line is printed when the next one starts.  The
dump, expanded, has every cell of the range once exactly if its last line is printed
(`expand_dump_iff`): if the range has whole lines and the last but one repeats the one before it.
-/

namespace LineDump

variable {α : Type}

/-! ### What a dump stands for -/

/-- A part of a dump: a line with the address of its first cell, or the mark for lines that repeat
the last one -/
inductive Entry (α : Type) where
  | line (addr : Int) (vals : List α)
  | repeats

/-- Cells with their addresses -/
def numbered (addr : Int) : List α → List (Int × α)
  | [] => []
  | val :: vals => (addr, val) :: numbered (addr + 1) vals

/-- The first `n` cells of lines that repeat a line -/
def cycle (line : List α) (n : Nat) : List α :=
  (List.replicate n line).flatten.take n

/-- What a mark stands for: lines that repeat the line before it, up to the next address -/
def fill (addr : Int) (line : List α) : List (Entry α) → List (Int × α)
  | .repeats :: .line next _ :: _ => numbered addr (cycle line (next - addr).toNat)
  | _ => []

/-- The cells of a dump -/
def expand : List (Entry α) → List (Int × α)
  | [] => []
  | .repeats :: es => expand es
  | .line addr vals :: es => numbered addr vals ++ fill (addr + vals.length) vals es ++ expand es

/-- The dump so far: what is printed, the line that is collected, the line before it, and how many
lines repeat it -/
structure State (α : Type) where
  out : List (Entry α)
  cur : List α
  last : List α
  dup : Nat

/-- The mark, if lines have been left out -/
def mark (dup : Nat) : List (Entry α) :=
  if 0 < dup then [.repeats] else []

/-- The cells of a range -/
def cells (cell : Int → α) (base : Int) (n : Nat) : List (Int × α) :=
  numbered base (readRange cell base n)

/-! ### Cells -/

theorem numbered_append
    (addr : Int) (vals vals' : List α) :
  numbered addr (vals ++ vals') = numbered addr vals ++ numbered (addr + vals.length) vals'
  := by
  induction vals generalizing addr with
  | nil => simp [numbered]
  | cons val vals ih =>
    rw [List.cons_append, numbered, ih, numbered, List.length_cons, List.cons_append]
    congr 3
    push_cast
    omega

theorem length_cells
    (cell : Int → α) (base : Int) (n : Nat) :
  (cells cell base n).length = n
  := by
  induction n generalizing base with
  | zero => rfl
  | succ n ih => exact congrArg (· + 1) (ih (base + 1))

theorem cells_add
    (cell : Int → α) (base : Int) (m n : Nat) :
  cells cell base (m + n) = cells cell base m ++ cells cell (base + m) n
  := by
  rw [cells, readRange_add, numbered_append, length_readRange]
  rfl

/-- The first cell of a line -/
theorem head_numbered
    (addr : Int) {vals : List α} (h : vals ≠ []) (rest : List (Int × α)) :
  ∃ val, (numbered addr vals ++ rest).head? = some (addr, val)
  := by
  cases vals with
  | nil => contradiction
  | cons val vals => exact ⟨val, rfl⟩

/-- The last cell of a line -/
theorem last_numbered
    (addr : Int) {vals : List α} (h : vals ≠ []) :
  ∃ val, (numbered addr vals).getLast? = some (addr + vals.length - 1, val)
  := by
  induction vals generalizing addr with
  | nil => contradiction
  | cons val vals ih =>
    cases vals with
    | nil =>
      use val
      simp [numbered]
    | cons val' vals =>
      obtain ⟨v, hv⟩ := ih (addr + 1) (List.cons_ne_nil _ _)
      use v
      rw [numbered, List.getLast?_cons, hv]
      simp
      omega

/-- Whole lines that repeat a line of a store -/
theorem cycle_eq
    {d : Nat} (hd : 0 < d) {cell : Int → α} {line : List α} (addr : Int) (m : Nat)
    (h : ∀ k < m, readRange cell (addr + (d * k : Nat)) d = line) :
  cycle line (d * m) = readRange cell addr (d * m)
  := by
  have hcopies : readRange cell addr (d * m) = (List.replicate m line).flatten := by
    clear hd
    induction m with
    | zero => rfl
    | succ m ih =>
      rw [Nat.mul_succ, readRange_add, ih fun k hk => h k (by omega), h m (by omega),
        List.replicate_succ', List.flatten_append, List.flatten_singleton]
  have hlength : ((List.replicate m line).flatten).length = d * m := by
    rw [← hcopies, length_readRange]
  have hle : m + (d * m - m) = d * m := Nat.add_sub_of_le (Nat.le_mul_of_pos_left m hd)
  have hsplit : List.replicate (d * m) line
      = List.replicate m line ++ List.replicate (d * m - m) line := by
    rw [List.replicate_append_replicate, hle]
  rw [cycle, hcopies, hsplit, List.flatten_append, List.take_left' hlength]

/-- A line, the mark for lines that repeat it, and the next line -/
theorem expand_mark
    {d : Nat} (hd : 0 < d) {cell : Int → α} {line : List α} (addr next : Int) {dup : Nat}
    (h : ∀ k < dup + 1, readRange cell (addr + (d * k : Nat)) d = line)
    (hnext : addr + (d * (dup + 1) : Nat) = next) (vals : List α) (rest : List (Entry α)) :
  expand (.line addr line :: (mark dup ++ .line next vals :: rest))
    = cells cell addr (d * (dup + 1)) ++ expand (.line next vals :: rest)
  := by
  have hline : readRange cell addr d = line := by
    have := h 0 (by omega)
    simpa using this
  have hlength : line.length = d := by rw [← hline, length_readRange]
  have hnumbered : numbered addr line = cells cell addr d := by rw [cells, hline]
  cases dup with
  | zero =>
    rw [Nat.zero_add, Nat.mul_one, ← hnumbered]
    change numbered addr line ++ [] ++ _ = _
    rw [List.append_nil]
    rfl
  | succ dup =>
    have hrepeats : cycle line (d * (dup + 1)) = readRange cell (addr + d) (d * (dup + 1)) := by
      apply cycle_eq hd
      intro k hk
      have := h (k + 1) (by omega)
      rw [Nat.mul_succ] at this
      push_cast at this ⊢
      rw [← this]
      congr 1
      omega
    have hgap : (next - (addr + d)).toNat = d * (dup + 1) := by
      rw [← hnext, Nat.mul_succ d (dup + 1)]
      generalize d * (dup + 1) = m
      omega
    change numbered addr line ++ numbered (addr + line.length)
      (cycle line (next - (addr + line.length)).toNat) ++ _ = _
    rw [hlength, hgap, hrepeats, hnumbered, Nat.mul_succ d (dup + 1), Nat.add_comm _ d, cells_add]
    rfl

/-- The cells of a range have the first address of the range, and the last one. -/
theorem ends_cells
    (cell : Int → α) (base : Int) {n : Nat} (hn : 0 < n) :
  (∃ val, (cells cell base n).head? = some (base, val))
    ∧ ∃ val, (cells cell base n).getLast? = some (base + n - 1, val)
  := by
  have hne : readRange cell base n ≠ [] := by
    intro hnil
    have := length_readRange cell base n
    rw [hnil] at this
    simp at this
    omega
  obtain ⟨v, hv⟩ := head_numbered base hne []
  obtain ⟨w, hw⟩ := last_numbered base hne
  rw [List.append_nil] at hv
  rw [length_readRange] at hw
  exact ⟨⟨v, hv⟩, ⟨w, hw⟩⟩

/-- The last cell of a dump that ends with a line -/
theorem last_expand
    (es : List (Entry α)) (addr : Int) {vals : List α} (h : vals ≠ []) :
  ∃ val, (expand (es ++ [.line addr vals])).getLast? = some (addr + vals.length - 1, val)
  := by
  induction es with
  | nil =>
    obtain ⟨val, hval⟩ := last_numbered addr h
    use val
    change (numbered addr vals ++ [] ++ []).getLast? = _
    rw [List.append_nil, List.append_nil, hval]
  | cons e es ih =>
    obtain ⟨val, hval⟩ := ih
    use val
    cases e with
    | repeats => exact hval
    | line a l =>
      rw [List.cons_append, expand, List.getLast?_append, hval]
      rfl

/-! ### The algorithm -/

/-- The dump before the first cell -/
def State.start : State α :=
  { out := [], cur := [], last := [], dup := 0 }

section

variable [DecidableEq α]

/-- The collected line is complete, before the cell `i`. -/
def State.flush (d : Nat) (i : Int) (s : State α) : State α :=
  if s.cur = s.last then
    { s with cur := [], dup := s.dup + 1 }
  else
    { out := s.out ++ mark s.dup ++ [.line (i - d) s.cur], cur := [], last := s.cur, dup := 0 }

/-- The cell `i` -/
def State.step (d : Nat) (i : Int) (val : α) (s : State α) : State α :=
  let s := if i % d = 0 ∧ s.cur ≠ [] then s.flush d i else s
  { s with cur := s.cur ++ [val] }

/-- The cells `i, i + 1, …`, of which `n` are left -/
def State.steps (d : Nat) (cell : Int → α) : Int → Nat → State α → State α
  | _, 0, s => s
  | i, n + 1, s => (s.step d i (cell i)).steps d cell (i + 1) n

/-- After the last cell, a line is printed only if lines have been left out. -/
def State.finish (d : Nat) (i : Int) (s : State α) : List (Entry α) :=
  if 0 < s.dup then s.out ++ [.repeats, .line (i - d) s.cur] else s.out

/-- The dump of `n` cells from `base` on -/
def dump (d : Nat) (cell : Int → α) (base : Int) (n : Nat) : List (Entry α) :=
  (State.start.steps d cell base n).finish d (base + n)

end

/-! ### Every dump -/

/-- An interval without a multiple of `d` is short. -/
theorem le_of_no_multiple
    {d : Nat} (hd : 0 < d) {e i : Int} (hfree : ∀ x, e < x → x < i → ¬ (d : Int) ∣ x) :
  i - e ≤ d
  := by
  by_contra hlong
  have hpos : (0 : Int) < d := by exact_mod_cast hd
  have hnonneg := Int.emod_nonneg e (Int.ne_of_gt hpos)
  have hlt := Int.emod_lt_of_pos e hpos
  apply hfree (e + (d - e % d)) (by omega) (by omega)
  use e / d + 1
  rw [Int.mul_add, Int.mul_one]
  have := Int.emod_add_mul_ediv e d
  omega

/-- After a part of a dump: the line that is collected, the first line and the last one -/
structure Progress (d : Nat) (cell : Int → α) (base i : Int) (s : State α) : Prop where
  cur : s.cur = readRange cell (i - s.cur.length) s.cur.length
  start : base ≤ i - s.cur.length
  some : base < i → s.cur ≠ []
  free : ∀ x, i - s.cur.length < x → x < i → ¬ (d : Int) ∣ x
  done : i - s.cur.length = base ∧ s.out = [] ∧ s.last = [] ∧ s.dup = 0
    ∨ (d : Int) ∣ i - s.cur.length
      ∧ (∃ first es, s.out = .line (base + first.length - d) first :: es ∧ first ≠ []
        ∧ (d : Int) ∣ base + first.length)
      ∧ ∃ es addr, s.out = es ++ [.line addr s.last] ∧ addr + d ≤ i - s.cur.length
        ∧ s.last ≠ [] ∧ s.last.length ≤ d

variable {d : Nat} {cell : Int → α} {base i : Int} {s : State α}

theorem Progress.length_le
    (h : Progress d cell base i s) (hd : 0 < d) :
  s.cur.length ≤ d
  := by
  have := le_of_no_multiple hd h.free
  omega

theorem Progress.initial
    (d : Nat) (cell : Int → α) (base : Int) :
  Progress d cell base base .start where
  cur := rfl
  start := by simp [State.start]
  some h := absurd h (Int.lt_irrefl _)
  free x := by
    simp [State.start]
    omega
  done := by simp [State.start]

/-- A line that ends before `i`, or none, and the cell `i` -/
theorem Progress.append
    (hcur : s.cur = readRange cell (i - s.cur.length) s.cur.length)
    (hstart : base ≤ i - s.cur.length)
    (hfree : ∀ x, i - s.cur.length < x → x < i → ¬ (d : Int) ∣ x)
    (hi : s.cur ≠ [] → ¬ (d : Int) ∣ i)
    (hdone : i - s.cur.length = base ∧ s.out = [] ∧ s.last = [] ∧ s.dup = 0
      ∨ (d : Int) ∣ i - s.cur.length
        ∧ (∃ first es, s.out = .line (base + first.length - d) first :: es ∧ first ≠ []
          ∧ (d : Int) ∣ base + first.length)
        ∧ ∃ es addr, s.out = es ++ [.line addr s.last] ∧ addr + d ≤ i - s.cur.length
          ∧ s.last ≠ [] ∧ s.last.length ≤ d) :
  Progress d cell base (i + 1) { s with cur := s.cur ++ [cell i] }
  := by
  have hlength : (s.cur ++ [cell i]).length = s.cur.length + 1 := by simp
  have hbegin : i + 1 - ((s.cur ++ [cell i]).length : Int) = i - s.cur.length := by
    rw [hlength]
    push_cast
    omega
  constructor
  · rw [hbegin, hlength, readRange_add, ← hcur, Int.sub_add_cancel]
    rfl
  · rw [hbegin]
    exact hstart
  · exact fun _ => List.append_ne_nil_of_right_ne_nil _ (List.cons_ne_nil _ _)
  · rw [hbegin]
    intro x hlow hhigh
    rcases Int.lt_or_eq_of_le (Int.le_of_lt_add_one hhigh) with hx | rfl
    · exact hfree x hlow hx
    · apply hi
      intro hnil
      rw [hnil] at hlow
      simp at hlow
  · rw [hbegin]
    exact hdone

variable [DecidableEq α]

theorem Progress.step
    (h : Progress d cell base i s) (hd : 0 < d) :
  Progress d cell base (i + 1) (s.step d i (cell i))
  := by
  rw [State.step]
  split
  · next hflush =>
    obtain ⟨hmod, hne⟩ := hflush
    have hi : (d : Int) ∣ i := Int.dvd_of_emod_eq_zero hmod
    have hle := h.length_le hd
    rw [State.flush]
    split
    · next hdup =>
      apply append
      · rfl
      · simp
        have := h.start
        omega
      · intro x hlow hhigh
        simp at hlow
        omega
      · exact fun h => absurd rfl h
      · rcases h.done with ⟨-, -, hlast, -⟩ | ⟨-, hfirst, es, addr, hout, haddr, hlast, hlen⟩
        · rw [hlast] at hdup
          contradiction
        · refine .inr ⟨?_, hfirst, es, addr, hout, ?_, hlast, hlen⟩
          · simpa using hi
          · simp
            omega
    · next hnew =>
      apply append
      · rfl
      · simp
        have := h.start
        omega
      · intro x hlow hhigh
        simp at hlow
        omega
      · exact fun h => absurd rfl h
      · refine .inr ⟨?_, ?_, s.out ++ mark s.dup, i - d, rfl, ?_, hne, hle⟩
        · simpa using hi
        · rcases h.done with ⟨hbase, hout, -, hdup⟩ | ⟨-, ⟨first, es, hout, hfirst⟩, -⟩
          · have hend : base + s.cur.length = i := by omega
            rw [hout, hdup]
            use s.cur, []
            rw [hend]
            exact ⟨rfl, hne, hi⟩
          · use first, es ++ mark s.dup ++ [.line (i - d) s.cur]
            refine ⟨?_, hfirst⟩
            rw [hout]
            simp
        · simp
  · next hflush =>
    apply append h.cur h.start h.free _ h.done
    intro hne hi
    exact hflush ⟨Int.emod_eq_zero_of_dvd hi, hne⟩

theorem Progress.steps
    (h : Progress d cell base i s) (hd : 0 < d) (n : Nat) :
  Progress d cell base (i + n) (s.steps d cell i n)
  := by
  induction n generalizing i s with
  | zero =>
    rw [State.steps]
    simpa using h
  | succ n ih =>
    have hrest := ih (h.step hd)
    rw [State.steps]
    have hend : i + (n + 1 : Nat) = i + 1 + n := by
      push_cast
      omega
    rw [hend]
    exact hrest

/-- A dump that has every cell of its range prints the last line, and all its lines are whole. -/
theorem of_expand_dump
    {n : Nat} (hd : 0 < d) (hn : 0 < n) (h : expand (dump d cell base n) = cells cell base n) :
  (d : Int) ∣ base ∧ 0 < (State.start.steps d cell base n).dup
    ∧ (State.start.steps d cell base n).cur.length = d
  := by
  have hp := (Progress.initial d cell base).steps hd n
  obtain ⟨⟨v, hfirst⟩, ⟨w, hlast⟩⟩ := ends_cells cell base hn
  rw [← h, dump] at hfirst hlast
  generalize State.start.steps d cell base n = s at hp hfirst hlast
  have hne := hp.some (by omega)
  have hpos := List.length_pos_iff.mpr hne
  rcases hp.done with
    ⟨-, hout, -, hdup⟩ | ⟨-, ⟨first, es, hout, hne', hdvd⟩, es', addr, hout', haddr, hl, hlen⟩
  · rw [State.finish, hdup, if_neg (Nat.lt_irrefl 0), hout] at hfirst
    contradiction
  · have hwhole : first.length = d := by
      obtain ⟨rest, hrest⟩ : ∃ rest, s.finish d (base + n)
          = .line (base + first.length - d) first :: rest := by
        rw [State.finish, hout]
        split
        · exact ⟨_, rfl⟩
        · exact ⟨_, rfl⟩
      rw [hrest, expand, List.append_assoc] at hfirst
      obtain ⟨v', hv'⟩ := head_numbered (base + first.length - d) hne'
        (fill (base + first.length - d + first.length) first rest ++ expand rest)
      rw [hv'] at hfirst
      have := (Prod.mk.inj (Option.some.inj hfirst)).1
      omega
    refine ⟨?_, ?_⟩
    · rw [hwhole] at hdvd
      exact (Int.dvd_add_left (Int.dvd_refl _)).mp hdvd
    · rw [State.finish] at hlast
      split at hlast
      · next hdup =>
        use hdup
        obtain ⟨w', hw'⟩ := last_expand (s.out ++ [.repeats]) (base + n - d) hne
        rw [List.append_assoc, List.singleton_append] at hw'
        rw [hw'] at hlast
        have := (Prod.mk.inj (Option.some.inj hlast)).1
        omega
      · obtain ⟨w', hw'⟩ := last_expand es' addr hl
        rw [hout', hw'] at hlast
        have := (Prod.mk.inj (Option.some.inj hlast)).1
        omega

/-- The addresses of the lines that are printed -/
def Within (d : Nat) (i : Int) (s : State α) : Prop :=
  (∀ addr vals, .line addr vals ∈ s.out → 0 ≤ addr ∧ addr < i) ∧ (0 < s.dup → d ≤ i)

theorem Within.steps
    (h : Within d i s) (hp : Progress d cell base i s) (hd : 0 < d) (hbase : 0 ≤ base) (n : Nat) :
  Within d (i + n) (s.steps d cell i n)
  := by
  induction n generalizing i s with
  | zero =>
    rw [State.steps]
    simpa using h
  | succ n ih =>
    have hend : i + (n + 1 : Nat) = i + 1 + n := by
      push_cast
      omega
    rw [State.steps, hend]
    refine ih ?_ (hp.step hd)
    obtain ⟨hlines, hdup⟩ := h
    rw [State.step]
    split
    · next hflush =>
      have hlength := List.length_pos_iff.mpr hflush.2
      have hstart := hp.start
      have hle : (d : Int) ≤ i := Int.le_of_dvd (by omega) (Int.dvd_of_emod_eq_zero hflush.1)
      rw [State.flush]
      split
      · refine ⟨fun addr vals hmem => ?_, fun _ => by omega⟩
        have := hlines addr vals hmem
        omega
      · refine ⟨fun addr vals hmem => ?_, fun h => absurd h (Nat.lt_irrefl 0)⟩
        rcases List.mem_append.mp hmem with hmem | hmem
        · rcases List.mem_append.mp hmem with hmem | hmem
          · have := hlines addr vals hmem
            omega
          · rw [mark] at hmem
            split at hmem
            · cases List.mem_singleton.mp hmem
            · contradiction
        · cases List.mem_singleton.mp hmem
          omega
    · refine ⟨fun addr vals hmem => ?_, fun h => ?_⟩
      · have := hlines addr vals hmem
        omega
      · have := hdup h
        omega

/-- The lines of a dump have addresses from 0 up to the end of its range. -/
theorem of_mem_dump
    (hd : 0 < d) (hbase : 0 ≤ base) {n : Nat} {addr : Int} {vals : List α}
    (hmem : .line addr vals ∈ dump d cell base n) :
  0 ≤ addr ∧ addr < base + n
  := by
  have hstart : Within d base (State.start (α := α)) :=
    ⟨fun _ _ h => absurd h List.not_mem_nil, fun h => absurd h (Nat.lt_irrefl 0)⟩
  obtain ⟨hlines, hdup⟩ := hstart.steps (Progress.initial d cell base) hd hbase n
  rw [dump, State.finish] at hmem
  split at hmem
  · next h =>
    have hpos : (0 : Int) < d := by exact_mod_cast hd
    have hle := hdup h
    rcases List.mem_append.mp hmem with hmem | hmem
    · exact hlines addr vals hmem
    · rcases List.mem_cons.mp hmem with heq | hmem
      · cases heq
      · cases List.mem_singleton.mp hmem
        omega
  · exact hlines addr vals hmem

/-! ### Dumps of whole lines -/

/-- After a part of a dump that starts with a whole line: what is printed stands for the cells up
to the last line, which the lines that have been left out repeat -/
def Listed (d : Nat) (cell : Int → α) (base i : Int) (s : State α) : Prop :=
  (i - s.cur.length = base ∧ s.out = [] ∧ s.last = [] ∧ s.dup = 0)
    ∨ ∃ es j, s.out = es ++ [.line (base + (d * j : Nat)) s.last]
      ∧ base + (d * (j + s.dup + 1) : Nat) = i - s.cur.length
      ∧ (∀ k < s.dup + 1, readRange cell (base + (d * (j + k) : Nat)) d = s.last)
      ∧ (∀ rest, expand (es ++ .line (base + (d * j : Nat)) s.last :: rest)
        = cells cell base (d * j) ++ expand (.line (base + (d * j : Nat)) s.last :: rest))
      ∧ (s.dup = 0 → ∀ m, j = m + 1 → readRange cell (base + (d * m : Nat)) d ≠ s.last)

omit [DecidableEq α] in
/-- The collected line is whole, where the next one starts. -/
theorem Progress.whole
    (h : Progress d cell base i s) (hd : 0 < d) (hbase : (d : Int) ∣ base) (hi : (d : Int) ∣ i)
    (hne : s.cur ≠ []) :
  s.cur.length = d
  := by
  have hbegin : (d : Int) ∣ i - s.cur.length := by
    rcases h.done with ⟨heq, -⟩ | ⟨hdvd, -⟩
    · rw [heq]
      exact hbase
    · exact hdvd
  have hdvd : (d : Int) ∣ s.cur.length := by
    have := Int.dvd_sub hi hbegin
    rwa [Int.sub_sub_self] at this
  have := Nat.le_of_dvd (List.length_pos_iff.mpr hne) (Int.natCast_dvd_natCast.mp hdvd)
  have := h.length_le hd
  omega

omit [DecidableEq α] in
/-- What is printed, with the mark, stands for the cells up to the line that is collected. -/
theorem Listed.expand_out
    (h : Listed d cell base i s) (hd : 0 < d) :
  ∃ j : Nat, base + (d * j : Nat) = i - s.cur.length
    ∧ (∀ m, j = m + 1 → readRange cell (base + (d * m : Nat)) d = s.last)
    ∧ ∀ vals rest, expand (s.out ++ mark s.dup ++ .line (i - s.cur.length) vals :: rest)
      = cells cell base (d * j) ++ expand (.line (i - s.cur.length) vals :: rest)
  := by
  rcases h with ⟨hbase, hout, -, hdup⟩ | ⟨es, j, hout, hbegin, hlines, hexpand, -⟩
  · use 0
    rw [hout, hdup, Nat.mul_zero, Int.natCast_zero, Int.add_zero]
    exact ⟨hbase.symm, fun m hm => absurd hm (Nat.succ_ne_zero m).symm, fun _ _ => rfl⟩
  · have hoffset (k : Nat) : base + (d * j : Nat) + (d * k : Nat) = base + (d * (j + k) : Nat) := by
      rw [Int.add_assoc, ← Int.natCast_add, ← Nat.mul_add]
    use j + (s.dup + 1), hbegin
    constructor
    · intro m hm
      obtain rfl : m = j + s.dup := by omega
      exact hlines s.dup (by omega)
    · intro vals rest
      have hmark := expand_mark hd (base + (d * j : Nat)) (i - s.cur.length)
        (fun k hk => (congrArg (readRange cell · d) (hoffset k)).trans (hlines k hk))
        ((hoffset _).trans hbegin) vals rest
      rw [hout, List.append_assoc, List.append_assoc, List.singleton_append, hexpand, hmark,
        Nat.mul_add d j (s.dup + 1), cells_add, List.append_assoc]

theorem Listed.step
    (h : Listed d cell base i s) (hp : Progress d cell base i s) (hd : 0 < d)
    (hbase : (d : Int) ∣ base) :
  Listed d cell base (i + 1) (s.step d i (cell i))
  := by
  have happend (s' : State α) (h : Listed d cell base i s') :
      Listed d cell base (i + 1) { s' with cur := s'.cur ++ [cell i] } := by
    have hbegin : i + 1 - ((s'.cur ++ [cell i]).length : Int) = i - s'.cur.length := by
      simp
    rw [Listed, hbegin]
    exact h
  rw [State.step]
  split
  · next hflush =>
    obtain ⟨hmod, hne⟩ := hflush
    have hi : (d : Int) ∣ i := Int.dvd_of_emod_eq_zero hmod
    have hwhole := hp.whole hd hbase hi hne
    have hcur : readRange cell (i - d) d = s.cur := by
      have := hp.cur
      rw [hwhole] at this
      exact this.symm
    apply happend
    rw [State.flush]
    split
    · next hdup =>
      rcases h with ⟨-, -, hlast, -⟩ | ⟨es, j, hout, hbegin, hlines, hexpand, -⟩
      · rw [hlast] at hdup
        contradiction
      · rw [hwhole] at hbegin
        refine .inr ⟨es, j, hout, ?_, ?_, hexpand, fun h => absurd h (Nat.succ_ne_zero _)⟩
        · rw [← Nat.add_assoc j s.dup 1, Nat.mul_succ]
          change _ = i - ((0 : Nat) : Int)
          omega
        · intro k hk
          rcases Nat.lt_or_eq_of_le (Nat.le_of_lt_succ hk) with hlt | rfl
          · exact hlines k hlt
          · rw [← Nat.add_assoc, hbegin, hcur]
            exact hdup
    · next hnew =>
      obtain ⟨j, hbegin, hbefore, hexpand⟩ := h.expand_out hd
      rw [hwhole] at hbegin hexpand
      refine .inr ⟨s.out ++ mark s.dup, j, ?_, ?_, ?_, ?_, ?_⟩
      · rw [hbegin]
      · change base + (d * (j + 0 + 1) : Nat) = i - ((0 : Nat) : Int)
        rw [Nat.add_zero, Nat.mul_succ]
        generalize d * j = m at hbegin ⊢
        omega
      · intro k hk
        obtain rfl : k = 0 := by
          change k < 0 + 1 at hk
          omega
        rw [Nat.add_zero, hbegin]
        exact hcur
      · rw [hbegin]
        exact fun rest => hexpand s.cur rest
      · intro _ m hm heq
        exact hnew (heq.symm.trans (hbefore m hm))
  · exact happend s h

theorem Listed.steps
    (h : Listed d cell base i s) (hp : Progress d cell base i s) (hd : 0 < d)
    (hbase : (d : Int) ∣ base) (n : Nat) :
  Listed d cell base (i + n) (s.steps d cell i n)
  := by
  induction n generalizing i s with
  | zero =>
    rw [State.steps]
    simpa using h
  | succ n ih =>
    have hrest := ih (h.step hp hd hbase) (hp.step hd)
    rw [State.steps]
    have hend : i + (n + 1 : Nat) = i + 1 + n := by
      push_cast
      omega
    rw [hend]
    exact hrest

/-- The dump of a range, expanded, has every cell of the range once, in order, exactly if the
range is empty, or has whole lines the last but one of which repeats the one before it. -/
theorem expand_dump_iff
    (hd : 0 < d) (cell : Int → α) (base : Int) (n : Nat) :
  expand (dump d cell base n) = cells cell base n
    ↔ n = 0 ∨ (d : Int) ∣ base ∧ d ∣ n ∧ 3 * d ≤ n
      ∧ readRange cell (base + (n - 2 * d)) d = readRange cell (base + (n - 3 * d)) d
  := by
  have hpos : (0 : Int) < d := by exact_mod_cast hd
  have hp := (Progress.initial d cell base).steps hd n
  have hlisted (hbase : (d : Int) ∣ base) :=
    Listed.steps (.inl ⟨by simp [State.start], rfl, rfl, rfl⟩) (Progress.initial d cell base) hd
      hbase n
  constructor
  · intro h
    rcases Nat.eq_zero_or_pos n with hn | hn
    · exact .inl hn
    · obtain ⟨hbase, hdup, hwhole⟩ := of_expand_dump hd hn h
      refine .inr ⟨hbase, ?_⟩
      rcases hlisted hbase with ⟨-, -, -, hzero⟩ | ⟨es, j, -, hbegin, hlines, -, -⟩
      · omega
      · generalize State.start.steps d cell base n = s at hdup hwhole hbegin hlines
        obtain ⟨dup, hdup⟩ := Nat.exists_eq_succ_of_ne_zero (Nat.ne_of_gt hdup)
        rw [hdup, hwhole, show j + dup.succ + 1 = j + dup + 2 by omega, Nat.mul_add] at hbegin
        have hsize : n = d * (j + dup) + 3 * d := by
          generalize d * (j + dup) = m at hbegin ⊢
          omega
        refine ⟨?_, ?_, ?_⟩
        · rw [hsize, Nat.mul_comm 3 d, ← Nat.mul_add]
          exact Nat.dvd_mul_right _ _
        · rw [hsize]
          exact Nat.le_add_left _ _
        · have hlast := hlines (dup + 1) (by omega)
          have hbefore := hlines dup (by omega)
          rw [← Nat.add_assoc, Nat.mul_succ] at hlast
          rw [show base + ((n : Int) - 2 * d) = base + (d * (j + dup) + d : Nat) by
              generalize d * (j + dup) = m at hsize ⊢
              omega,
            show base + ((n : Int) - 3 * d) = base + (d * (j + dup) : Nat) by
              generalize d * (j + dup) = m at hsize ⊢
              omega, hlast, hbefore]
  · rintro (rfl | ⟨hbase, hn, hthree, hrepeat⟩)
    · rfl
    · have hend : (d : Int) ∣ base + n := Int.dvd_add hbase (Int.natCast_dvd_natCast.mpr hn)
      have hne := hp.some (by omega)
      have hwhole := hp.whole hd hbase hend hne
      have hl := hlisted hbase
      have hdup : 0 < (State.start.steps d cell base n).dup := by
        by_contra hzero
        have hdup := Nat.eq_zero_of_not_pos hzero
        rcases hl with ⟨hbegin, -⟩ | ⟨es, j, -, hbegin, hlines, -, hnew⟩
        · omega
        · rw [hdup, hwhole, Nat.add_zero, Nat.mul_succ] at hbegin
          have hline := hlines 0 (by omega)
          rw [Nat.add_zero] at hline
          cases j with
          | zero => omega
          | succ m =>
            apply hnew hdup m rfl
            rw [Nat.mul_succ] at hbegin hline
            rw [← hline]
            rw [show base + ((n : Int) - 2 * d) = base + (d * m + d : Nat) by
                generalize d * m = k at hbegin ⊢
                omega,
              show base + ((n : Int) - 3 * d) = base + (d * m : Nat) by
                generalize d * m = k at hbegin ⊢
                omega] at hrepeat
            exact hrepeat.symm
      obtain ⟨j, hbegin, -, hexpand⟩ := hl.expand_out hd
      have hout := hexpand (State.start.steps d cell base n).cur []
      have hcur := hp.cur
      rw [hwhole] at hbegin hout hcur
      have hsize : n = d * j + d := by
        generalize d * j = m at hbegin ⊢
        omega
      have hmark : mark (State.start.steps d cell base n).dup = [Entry.repeats (α := α)] :=
        if_pos hdup
      rw [hmark, List.append_assoc, List.singleton_append] at hout
      rw [dump, State.finish, if_pos hdup, hout, ← hbegin, hcur, ← hbegin, hsize, cells_add]
      change _ ++ (numbered _ _ ++ [] ++ []) = _
      rw [List.append_nil, List.append_nil]
      rfl

end LineDump
