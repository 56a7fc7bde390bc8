import Mathlib.Data.List.TakeWhile

/-!
# Reading lines and tokens

`fgets` reads a line that fits its buffer whole (`fgets_line`), and a loop over `fgets` sees
the lines of the file, where they all fit (`anyLine_iff`).  `strtok_r` gives the fields between
the delimiters one after the other (`tokenAt_eq`).
-/

set_option autoImplicit false

namespace UsbTrace.Library

/-! ## Lines -/

/-- `fgets` into a buffer of `n + 1` characters: what it puts there, and what it leaves in the
file. -/
def fgets : ℕ → List Char → List Char × List Char
  | 0, file => ([], file)
  | _ + 1, [] => ([], [])
  | n + 1, c :: file =>
    if c = '\n' then ([c], file)
    else
      let (line, rest) := fgets n file
      (c :: line, rest)

/-- `while (fgets(...))`, until a line passes the test. -/
def anyLine (n : ℕ) (test : List Char → Bool) : ℕ → List Char → Bool
  | 0, _ => false
  | fuel + 1, file =>
    match fgets n file with
    | ([], _) => false
    | (line, rest) => test line || anyLine n test fuel rest

theorem fgets_line {n : ℕ} {line : List Char} (hline : '\n' ∉ line) (hn : line.length < n)
    (rest : List Char) : fgets n (line ++ '\n' :: rest) = (line ++ ['\n'], rest) := by
  induction line generalizing n with
  | nil =>
    obtain ⟨m, rfl⟩ := Nat.exists_eq_succ_of_ne_zero (Nat.ne_of_gt hn)
    exact if_pos rfl
  | cons c line ih =>
    rw [List.mem_cons, not_or] at hline
    obtain ⟨m, rfl⟩ := Nat.exists_eq_succ_of_ne_zero (Nat.ne_of_gt (Nat.zero_lt_of_lt hn))
    have hm : line.length < m := Nat.lt_of_succ_lt_succ hn
    rw [List.cons_append, fgets, if_neg (fun h => hline.1 h.symm), ih hline.2 hm]
    rfl

theorem fgets_lastLine {n : ℕ} {line : List Char} (hline : '\n' ∉ line) (hn : line.length < n) :
    fgets n line = (line, []) := by
  induction line generalizing n with
  | nil => cases n <;> rfl
  | cons c line ih =>
    rw [List.mem_cons, not_or] at hline
    obtain ⟨m, rfl⟩ := Nat.exists_eq_succ_of_ne_zero (Nat.ne_of_gt (Nat.zero_lt_of_lt hn))
    have hm : line.length < m := Nat.lt_of_succ_lt_succ hn
    rw [fgets, if_neg (fun h => hline.1 h.symm), ih hline.2 hm]

/-- A file without a newline, or its first line and the rest. -/
theorem firstLine_cases (file : List Char) :
    '\n' ∉ file ∨ ∃ line rest, '\n' ∉ line ∧ file = line ++ '\n' :: rest := by
  by_cases h : '\n' ∈ file
  · right
    obtain ⟨line, rest, hfile, hline⟩ := List.eq_append_cons_of_mem h
    exact ⟨line, rest, hline, hfile⟩
  · exact .inl h

theorem anyLine_line {n fuel : ℕ} {test : List Char → Bool} {file line rest : List Char}
    (h : fgets n file = (line, rest)) (hne : line ≠ []) :
    anyLine n test (fuel + 1) file = (test line || anyLine n test fuel rest) := by
  rw [anyLine, h]
  cases line with
  | nil => exact absurd rfl hne
  | cons c line => rfl

theorem anyLine_nil (n : ℕ) (test : List Char → Bool) (fuel : ℕ) :
    anyLine n test fuel [] = false := by
  cases fuel with
  | zero => rfl
  | succ fuel => cases n <;> rfl

/-- **The loop over a file** sees its lines.  The test takes no notice of the newline, and an
empty line does not pass it. -/
theorem anyLine_iff {n : ℕ} {test : List Char → Bool}
    (hnewline : ∀ line, test (line ++ ['\n']) = test line) (hempty : test [] = false)
    {fuel : ℕ} {file : List Char} (hfuel : file.length ≤ fuel)
    (hfit : ∀ line ∈ file.splitOn '\n', line.length < n) :
    anyLine n test fuel file = true ↔ ∃ line ∈ file.splitOn '\n', test line = true := by
  induction fuel generalizing file with
  | zero =>
    have hfile : file = [] := List.length_eq_zero_iff.mp (Nat.le_zero.mp hfuel)
    subst hfile
    rw [List.splitOn_nil, anyLine]
    simp [hempty]
  | succ fuel ih =>
    rcases firstLine_cases file with hfile | ⟨line, rest, hline, rfl⟩
    · rw [List.splitOn_eq_singleton hfile] at hfit ⊢
      simp only [List.mem_singleton, exists_eq_left]
      by_cases hne : file = []
      · rw [hne, anyLine_nil, hempty]
      · have hread := fgets_lastLine hfile (hfit file List.mem_cons_self)
        rw [anyLine_line hread hne, anyLine_nil, Bool.or_false]
    · rw [List.splitOn_append_cons_self_of_not_mem hline] at hfit ⊢
      have hread := fgets_line hline (hfit line List.mem_cons_self) rest
      have hne : line ++ ['\n'] ≠ [] := List.append_ne_nil_of_right_ne_nil _ (List.cons_ne_nil _ _)
      have hrest : rest.length ≤ fuel := by
        rw [List.length_append, List.length_cons] at hfuel
        omega
      rw [anyLine_line hread hne, hnewline, Bool.or_eq_true,
        ih hrest fun line' hline' => hfit line' (List.mem_cons_of_mem _ hline')]
      simp only [List.mem_cons, exists_eq_or_imp]

/-! ## Tokens -/

/-- `strtok_r`: the next token, and where the one after it is looked for. -/
def strtokR (isDelim : Char → Bool) (s : List Char) : Option (List Char × List Char) :=
  match s.dropWhile isDelim with
  | [] => none
  | c :: s =>
    some ((c :: s).takeWhile fun c => !isDelim c, ((c :: s).dropWhile fun c => !isDelim c).drop 1)

/-- The token number `i`. -/
def tokenAt (isDelim : Char → Bool) : ℕ → List Char → Option (List Char)
  | 0, s => (strtokR isDelim s).map Prod.fst
  | i + 1, s => (strtokR isDelim s).bind fun p => tokenAt isDelim i p.2

/-- What stands between the delimiters. -/
def fields (isDelim : Char → Bool) (s : List Char) : List (List Char) :=
  (s.splitOnP isDelim).filter fun w => !w.isEmpty

theorem fields_delim {isDelim : Char → Bool} {c : Char} (hc : isDelim c = true) (s : List Char) :
    fields isDelim (c :: s) = fields isDelim s := by
  rw [fields, List.splitOnP_cons_eq_if_modifyHead, if_pos hc]
  rfl

theorem fields_append_delim {isDelim : Char → Bool} {c : Char} (hc : isDelim c = true)
    (s : List Char) : fields isDelim (s ++ [c]) = fields isDelim s := by
  rw [fields, List.splitOnP_append_cons s [] hc, List.splitOnP_nil, List.filter_append]
  exact List.append_nil _

theorem fields_dropWhile (isDelim : Char → Bool) (s : List Char) :
    fields isDelim (s.dropWhile isDelim) = fields isDelim s := by
  induction s with
  | nil => rfl
  | cons c s ih =>
    rw [List.dropWhile_cons]
    split
    · next hc => rw [ih, fields_delim hc]
    · rfl

/-- The field at the front. -/
theorem fields_token {isDelim : Char → Bool} {c : Char} {s : List Char}
    (hc : isDelim c = false) :
    fields isDelim (c :: s) =
      ((c :: s).takeWhile fun c => !isDelim c) ::
        fields isDelim (((c :: s).dropWhile fun c => !isDelim c).drop 1) := by
  have htoken : ∀ x ∈ (c :: s).takeWhile (fun c => !isDelim c), isDelim x = false := by
    intro x hx
    simpa using List.mem_takeWhile_imp hx
  have hne : (!((c :: s).takeWhile fun c => !isDelim c).isEmpty) = true := by
    rw [List.takeWhile_cons, hc]
    rfl
  have hsplit := List.takeWhile_append_dropWhile (p := fun c => !isDelim c) (l := c :: s)
  cases hrest : (c :: s).dropWhile fun c => !isDelim c with
  | nil =>
    rw [hrest, List.append_nil] at hsplit
    rw [hsplit] at htoken hne ⊢
    rw [fields, List.splitOnP_eq_singleton htoken, List.filter_cons, if_pos hne]
    rfl
  | cons x rest =>
    have hx : isDelim x = true := by
      have hhead := List.head_dropWhile_not (fun c => !isDelim c) (l := c :: s)
        (by rw [hrest]; exact List.cons_ne_nil _ _)
      simpa [hrest] using hhead
    rw [hrest] at hsplit
    have hfields : fields isDelim (c :: s) =
        fields isDelim ((c :: s).takeWhile (fun c => !isDelim c) ++ x :: rest) := by rw [hsplit]
    rw [hfields, fields, List.splitOnP_append_cons_of_forall_mem htoken x hx, List.filter_cons,
      if_pos hne]
    rfl

theorem strtokR_eq (isDelim : Char → Bool) (s : List Char) :
    (strtokR isDelim s = none ∧ fields isDelim s = []) ∨
      ∃ token rest, strtokR isDelim s = some (token, rest) ∧
        fields isDelim s = token :: fields isDelim rest := by
  rw [← fields_dropWhile, strtokR]
  cases h : s.dropWhile isDelim with
  | nil => exact .inl ⟨rfl, rfl⟩
  | cons c s' =>
    have hc : isDelim c = false := by
      have hhead := List.head_dropWhile_not isDelim (l := s) (by rw [h]; exact List.cons_ne_nil _ _)
      simpa [h] using hhead
    exact .inr ⟨_, _, rfl, fields_token hc⟩

/-- **The tokens** are the fields. -/
theorem tokenAt_eq (isDelim : Char → Bool) (i : ℕ) (s : List Char) :
    tokenAt isDelim i s = (fields isDelim s)[i]? := by
  induction i generalizing s with
  | zero =>
    rcases strtokR_eq isDelim s with ⟨htok, hfields⟩ | ⟨token, rest, htok, hfields⟩
    · rw [tokenAt, htok, hfields]
      rfl
    · rw [tokenAt, htok, hfields]
      rfl
  | succ i ih =>
    rcases strtokR_eq isDelim s with ⟨htok, hfields⟩ | ⟨token, rest, htok, hfields⟩
    · rw [tokenAt, htok, hfields]
      rfl
    · rw [tokenAt, htok, hfields, List.getElem?_cons_succ, ← ih]
      rfl

end UsbTrace.Library
