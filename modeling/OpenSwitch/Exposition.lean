import Mathlib.Data.List.Nodup
/-!
# Exposition — the text of a metrics page

A page is lines, each ended by a newline: `# HELP name text`, `# TYPE name kind`, and samples `name{key="value",...} v`
in which the value of a label is escaped.  The writer's side and the reader's side are both functions, and the reader
gets back every line the writer wrote when names, keys and texts are plain (`readPage_writePage`); labels are read back
by the letter of the format too (`readLabelSet_writeLabels`).  A page is valid when no name has two HELP or two TYPE
lines, the samples of a name stand together, and no series is there twice; two valid pages with no name in common make
one (`Valid.append`).
-/
namespace Osw
namespace Exposition

structure Label where
  key   : List UInt8
  value : List UInt8
  deriving DecidableEq, Repr

inductive Line
  | help (name text : List UInt8)
  | type (name kind : List UInt8)
  | sample (name : List UInt8) (labels : List Label) (value : List UInt8)
  deriving DecidableEq, Repr

/-! ## Writing -/

/-- A backslash, a quote and a newline are escaped. -/
def escapeByte (c : UInt8) : List UInt8 :=
  if c = 92 then [92, 92] else if c = 34 then [92, 34] else if c = 10 then [92, 110] else [c]

def escape (v : List UInt8) : List UInt8 := v.flatMap escapeByte

def writeLabel (l : Label) : List UInt8 := l.key ++ 61 :: 34 :: (escape l.value ++ [34])

/-- The labels after the first, each behind a comma. -/
def writeMore (ls : List Label) : List UInt8 := ls.flatMap fun l => 44 :: writeLabel l

def writeLabels : List Label → List UInt8
  | []      => []
  | l :: ls => 123 :: (writeLabel l ++ writeMore ls ++ [125])

/-- `# HELP ` -/
def helpMark : List UInt8 := [35, 32, 72, 69, 76, 80, 32]

/-- `# TYPE ` -/
def typeMark : List UInt8 := [35, 32, 84, 89, 80, 69, 32]

def Line.write : Line → List UInt8
  | .help name text           => helpMark ++ (name ++ 32 :: text)
  | .type name kind           => typeMark ++ (name ++ 32 :: kind)
  | .sample name labels value => name ++ (writeLabels labels ++ 32 :: value)

def writePage (ls : List Line) : List UInt8 := ls.flatMap fun l => l.write ++ [10]

theorem writePage_nil : writePage [] = [] := rfl

theorem writePage_cons (l : Line) (ls : List Line) : writePage (l :: ls) = l.write ++ 10 :: writePage ls := by
  simp only [writePage, List.flatMap_cons, List.append_assoc, List.cons_append, List.nil_append]

theorem writePage_append (a b : List Line) : writePage (a ++ b) = writePage a ++ writePage b := List.flatMap_append

/-! ## Reading -/

/-- The value of a label up to its closing quote, and what follows. -/
def readValue : List UInt8 → Option (List UInt8 × List UInt8)
  | []  => none
  | [c] => if c = 34 then some ([], []) else none
  | c :: d :: r =>
    if c = 34 then some ([], d :: r)
    else if c = 92 then (readValue r).map fun p => ((if d = 110 then 10 else d) :: p.1, p.2)
    else (readValue (d :: r)).map fun p => (c :: p.1, p.2)

/-- The byte that a letter behind a backslash stands for. -/
def unescapeByte (d : UInt8) : Option UInt8 :=
  if d = 92 then some 92 else if d = 34 then some 34 else if d = 110 then some 10 else none

/-- `readValue` by the letter of the format: the escapes are the three that are written, and a newline does not stand in a
value. -/
def unescape : List UInt8 → Option (List UInt8 × List UInt8)
  | []  => none
  | [c] => if c = 34 then some ([], []) else none
  | c :: d :: r =>
    if c = 34 then some ([], d :: r)
    else if c = 92 then (unescapeByte d).bind fun x => (unescape r).map fun p => (x :: p.1, p.2)
    else if c = 10 then none
    else (unescape (d :: r)).map fun p => (c :: p.1, p.2)

/-- The labels up to the closing brace, and what follows. -/
def readLabels : Nat → List UInt8 → Option (List Label × List UInt8)
  | 0, _ => none
  | k + 1, b =>
    match b.dropWhile (· ≠ 61) with
    | [] => none
    | _ :: r =>
      match readValue r.tail with
      | some (v, c :: r') =>
        if c = 44 then (readLabels k r').map fun p => (⟨b.takeWhile (· ≠ 61), v⟩ :: p.1, p.2)
        else some ([⟨b.takeWhile (· ≠ 61), v⟩], r')
      | _ => none

/-- A name, and the rest of the line behind a space. -/
def readComment (line : List UInt8 → List UInt8 → Line) (b : List UInt8) : Option Line :=
  match b.dropWhile (· ≠ 32) with
  | []     => none
  | _ :: t => some (line (b.takeWhile (· ≠ 32)) t)

def readSample (b : List UInt8) : Option Line :=
  let name := b.takeWhile fun c => c ≠ 123 && c ≠ 32
  match b.dropWhile (fun c => c ≠ 123 && c ≠ 32) with
  | [] => none
  | c :: r =>
    if c = 32 then some (.sample name [] r)
    else match readLabels r.length r with
      | some (ls, _ :: v) => some (.sample name ls v)
      | _ => none

def readLine (b : List UInt8) : Option Line :=
  if helpMark.isPrefixOf b then readComment .help (b.drop helpMark.length)
  else if typeMark.isPrefixOf b then readComment .type (b.drop typeMark.length)
  else readSample b

def splitLines : List UInt8 → List (List UInt8)
  | [] => []
  | c :: cs =>
    if c = 10 then [] :: splitLines cs
    else match splitLines cs with
      | []      => [[c]]
      | l :: ls => (c :: l) :: ls

def readLines : List (List UInt8) → Option (List Line)
  | []      => some []
  | b :: bs =>
    match readLine b, readLines bs with
    | some l, some ls => some (l :: ls)
    | _, _ => none

def readPage (text : List UInt8) : Option (List Line) := readLines (splitLines text)

/-! ## What is written is read back -/

/-- A name has no space, brace, newline or hash. -/
def NamePlain (name : List UInt8) : Prop := ∀ b ∈ name, b ≠ 32 ∧ b ≠ 123 ∧ b ≠ 10 ∧ b ≠ 35

instance (name : List UInt8) : Decidable (NamePlain name) := inferInstanceAs (Decidable (∀ b ∈ name, _))

/-- A key has no equals sign and no newline. -/
def KeyPlain (key : List UInt8) : Prop := ∀ b ∈ key, b ≠ 61 ∧ b ≠ 10

instance (key : List UInt8) : Decidable (KeyPlain key) := inferInstanceAs (Decidable (∀ b ∈ key, _))

/-- A line that can be read back.  The values of labels may be any bytes. -/
def Line.Plain : Line → Prop
  | .help name text           => NamePlain name ∧ 10 ∉ text
  | .type name kind           => NamePlain name ∧ 10 ∉ kind
  | .sample name labels value => NamePlain name ∧ (∀ l ∈ labels, KeyPlain l.key) ∧ 10 ∉ value

theorem escape_cons (c : UInt8) (v : List UInt8) : escape (c :: v) = escapeByte c ++ escape v := rfl

theorem escape_of_plain : ∀ {v : List UInt8}, (∀ b ∈ v, b ≠ 92 ∧ b ≠ 34 ∧ b ≠ 10) → escape v = v
  | [], _ => rfl
  | c :: v, h => by
    obtain ⟨h1, h2, h3⟩ := h c List.mem_cons_self
    rw [escape_cons, escapeByte, if_neg h1, if_neg h2, if_neg h3,
      escape_of_plain fun b hb => h b (List.mem_cons_of_mem c hb)]
    rfl

theorem newline_notMem_escape (v : List UInt8) : (10 : UInt8) ∉ escape v := by
  intro h
  obtain ⟨c, -, hc⟩ := List.mem_flatMap.1 h
  unfold escapeByte at hc
  split at hc
  · revert hc
    decide
  · split at hc
    · revert hc
      decide
    · split at hc
      · revert hc
        decide
      · rename_i h10
        exact h10 (List.mem_singleton.1 hc).symm

theorem unescape_cons {c : UInt8} {r : List UInt8} (hq : c ≠ 34) (hb : c ≠ 92) (hn : c ≠ 10) (hr : r ≠ []) :
    unescape (c :: r) = (unescape r).map fun p => (c :: p.1, p.2) := by
  cases r with
  | nil => exact absurd rfl hr
  | cons d r => rw [unescape, if_neg hq, if_neg hb, if_neg hn]

theorem unescape_backslash {d x : UInt8} (r : List UInt8) (hd : unescapeByte d = some x) :
    unescape (92 :: d :: r) = (unescape r).map fun p => (x :: p.1, p.2) := by
  rw [unescape, if_neg (by decide), if_pos rfl, hd, Option.bind_some]

/-- **A value is what its escaped bytes stand for.** -/
theorem unescape_escape (v r : List UInt8) : unescape (escape v ++ 34 :: r) = some (v, r) := by
  induction v with
  | nil => cases r <;> rfl
  | cons c v ih =>
    have hr : escape v ++ 34 :: r ≠ [] := List.append_ne_nil_of_right_ne_nil _ (List.cons_ne_nil _ _)
    rw [escape_cons, List.append_assoc, escapeByte]
    by_cases hb : c = 92
    · rw [if_pos hb, List.cons_append, List.cons_append, List.nil_append, unescape_backslash _ rfl, ih, hb]
      rfl
    · rw [if_neg hb]
      by_cases hq : c = 34
      · rw [if_pos hq, List.cons_append, List.cons_append, List.nil_append, unescape_backslash _ rfl, ih, hq]
        rfl
      · rw [if_neg hq]
        by_cases hn : c = 10
        · rw [if_pos hn, List.cons_append, List.cons_append, List.nil_append, unescape_backslash _ rfl, ih, hn]
          rfl
        · rw [if_neg hn, List.cons_append, List.nil_append, unescape_cons hq hb hn hr, ih]
          rfl

theorem unescapeByte_eq {d x : UInt8} (h : unescapeByte d = some x) : x = if d = 110 then 10 else d := by
  unfold unescapeByte at h
  split at h
  · rename_i hd
    rw [hd, ← Option.some.inj h]
    rfl
  · split at h
    · rename_i hd
      rw [hd, ← Option.some.inj h]
      rfl
    · split at h
      · rename_i hd
        rw [if_pos hd, Option.some.inj h]
      · cases h

/-- What has a meaning by the letter is read as that. -/
theorem readValue_of_unescape : ∀ {b : List UInt8} {p : List UInt8 × List UInt8}, unescape b = some p → readValue b = some p
  | [], _, h => by cases h
  | [_], _, h => h
  | c :: d :: r, p, h => by
    rw [unescape] at h
    rw [readValue]
    by_cases hq : c = 34
    · rwa [if_pos hq] at h ⊢
    · rw [if_neg hq] at h ⊢
      by_cases hb : c = 92
      · rw [if_pos hb, Option.bind_eq_some_iff] at h
        obtain ⟨x, hx, hrest⟩ := h
        obtain ⟨p', hp', rfl⟩ := Option.map_eq_some_iff.1 hrest
        rw [if_pos hb, readValue_of_unescape hp', unescapeByte_eq hx]
        rfl
      · rw [if_neg hb] at h ⊢
        by_cases hn : c = 10
        · rw [if_pos hn] at h
          cases h
        · rw [if_neg hn] at h
          obtain ⟨p', hp', rfl⟩ := Option.map_eq_some_iff.1 h
          rw [readValue_of_unescape hp']
          rfl

/-- **A value is read back** whatever bytes it has. -/
theorem readValue_escape (v r : List UInt8) : readValue (escape v ++ 34 :: r) = some (v, r) :=
  readValue_of_unescape (unescape_escape v r)

/-- A name or key up to the first byte that cannot be in it. -/
theorem takeWhile_dropWhile_stop {p : UInt8 → Bool} {a : List UInt8} {c : UInt8} (r : List UInt8) (ha : ∀ b ∈ a, p b)
    (hc : p c = false) : (a ++ c :: r).takeWhile p = a ∧ (a ++ c :: r).dropWhile p = c :: r := by
  have hstop : ¬ p c = true := by rw [hc]; decide
  constructor
  · rw [List.takeWhile_append_of_pos ha, List.takeWhile_cons_of_neg hstop, List.append_nil]
  · rw [List.dropWhile_append_of_pos ha, List.dropWhile_cons_of_neg hstop]

variable {l : Label} {a b ls : List Line} {n : List UInt8}

theorem readLabels_writeLabel (hl : KeyPlain l.key) (k : Nat) (c : UInt8) (r : List UInt8) :
    readLabels (k + 1) (writeLabel l ++ c :: r) =
      if c = 44 then (readLabels k r).map fun p => (l :: p.1, p.2) else some ([l], r) := by
  have hshape : writeLabel l ++ c :: r = l.key ++ 61 :: (34 :: (escape l.value ++ 34 :: c :: r)) := by
    simp only [writeLabel, List.append_assoc, List.cons_append, List.nil_append]
  have hstop := takeWhile_dropWhile_stop (p := (· ≠ 61)) (34 :: (escape l.value ++ 34 :: c :: r))
    (fun b hb => decide_eq_true (hl b hb).1) (by decide : decide ((61 : UInt8) ≠ 61) = false)
  rw [hshape, readLabels, hstop.1, hstop.2]
  simp only [List.tail_cons, readValue_escape]

/-- **The labels are read back.** -/
theorem readLabels_write (r : List UInt8) : ∀ (l : Label) (ls : List Label) (k : Nat), (∀ l' ∈ l :: ls, KeyPlain l'.key) →
    ls.length < k → readLabels k (writeLabel l ++ writeMore ls ++ 125 :: r) = some (l :: ls, r)
  | l, [], k + 1, hp, _ => by
    rw [writeMore, List.flatMap_nil, List.append_nil, readLabels_writeLabel (hp l List.mem_cons_self), if_neg (by decide)]
  | l, l' :: ls, k + 1, hp, hk => by
    have hshape : writeLabel l ++ writeMore (l' :: ls) ++ 125 :: r =
        writeLabel l ++ 44 :: (writeLabel l' ++ writeMore ls ++ 125 :: r) := by
      simp only [writeMore, List.flatMap_cons, List.append_assoc, List.cons_append]
    rw [hshape, readLabels_writeLabel (hp l List.mem_cons_self), if_pos rfl,
      readLabels_write r l' ls k (fun x hx => hp x (List.mem_cons_of_mem l hx)) (Nat.lt_of_succ_lt_succ hk)]
    rfl

theorem length_le_writeMore : ∀ ls : List Label, ls.length ≤ (writeMore ls).length
  | [] => Nat.le_refl 0
  | l :: ls => by
    have ih := length_le_writeMore ls
    simp only [writeMore, List.flatMap_cons, List.cons_append, List.length_cons, List.length_append] at ih ⊢
    omega

/-- The reader of labels has as many steps as it has bytes, which is enough. -/
theorem readLabels_length {ls : List Label} (hp : ∀ l' ∈ l :: ls, KeyPlain l'.key) (r : List UInt8) :
    readLabels (writeLabel l ++ writeMore ls ++ 125 :: r).length (writeLabel l ++ writeMore ls ++ 125 :: r)
      = some (l :: ls, r) := by
  refine readLabels_write r l ls _ hp ?_
  have hle := length_le_writeMore ls
  simp only [List.length_append, List.length_cons]
  omega

theorem readComment_write (line : List UInt8 → List UInt8 → Line) {name : List UInt8} (text : List UInt8)
    (hn : NamePlain name) : readComment line (name ++ 32 :: text) = some (line name text) := by
  have hstop := takeWhile_dropWhile_stop (p := (· ≠ 32)) text (fun b hb => decide_eq_true (hn b hb).1)
    (by decide : decide ((32 : UInt8) ≠ 32) = false)
  rw [readComment, hstop.1, hstop.2]

theorem readSample_write {name : List UInt8} {labels : List Label} (value : List UInt8) (hn : NamePlain name)
    (hl : ∀ l ∈ labels, KeyPlain l.key) :
    readSample (name ++ (writeLabels labels ++ 32 :: value)) = some (.sample name labels value) := by
  have hname : ∀ b ∈ name, (b ≠ 123 && b ≠ 32) = true := by
    intro b hb
    obtain ⟨h32, h123, -⟩ := hn b hb
    simp [h32, h123]
  cases labels with
  | nil =>
    have hstop := takeWhile_dropWhile_stop (p := fun c => c ≠ 123 && c ≠ 32) value hname
      (by decide : (((32 : UInt8) ≠ 123 && (32 : UInt8) ≠ 32) = false))
    simp only [readSample, writeLabels, List.nil_append, hstop.1, hstop.2, if_true]
  | cons l ls =>
    have hshape : name ++ (writeLabels (l :: ls) ++ 32 :: value) =
        name ++ 123 :: (writeLabel l ++ writeMore ls ++ 125 :: 32 :: value) := by
      simp only [writeLabels, List.append_assoc, List.cons_append, List.nil_append]
    have hstop := takeWhile_dropWhile_stop (p := fun c => c ≠ 123 && c ≠ 32)
      (writeLabel l ++ writeMore ls ++ 125 :: 32 :: value) hname
      (by decide : (((123 : UInt8) ≠ 123 && (123 : UInt8) ≠ 32) = false))
    rw [hshape]
    simp only [readSample, hstop.1, hstop.2]
    rw [if_neg (by decide), readLabels_length hl]

/-- A sample is no comment. -/
theorem hash_ne_head {name : List UInt8} (labels : List Label) (value : List UInt8) (hn : NamePlain name)
    (mark : List UInt8) : (35 :: mark).isPrefixOf (name ++ (writeLabels labels ++ 32 :: value)) = false := by
  cases name with
  | cons c name =>
    have hc : c ≠ 35 := (hn c List.mem_cons_self).2.2.2
    simp [List.isPrefixOf, hc.symm]
  | nil =>
    cases labels <;> rfl

theorem isPrefixOf_append (a b : List UInt8) : a.isPrefixOf (a ++ b) = true :=
  List.isPrefixOf_iff_prefix.2 (List.prefix_append a b)

/-- **A line is read back.** -/
theorem readLine_write : ∀ {l : Line}, l.Plain → readLine l.write = some l
  | .help name text, h => by
    rw [Line.write, readLine, if_pos (isPrefixOf_append _ _), List.drop_left, readComment_write _ text h.1]
  | .type name kind, h => by
    rw [Line.write, readLine, if_neg (by simp [helpMark, typeMark, List.isPrefixOf]), if_pos (isPrefixOf_append _ _),
      List.drop_left, readComment_write _ kind h.1]
  | .sample name labels value, h => by
    rw [Line.write, readLine, if_neg (by rw [helpMark, hash_ne_head _ _ h.1]; decide),
      if_neg (by rw [typeMark, hash_ne_head _ _ h.1]; decide), readSample_write value h.1 h.2.1]

theorem newline_notMem_name {name : List UInt8} (h : NamePlain name) : (10 : UInt8) ∉ name :=
  fun hm => (h 10 hm).2.2.1 rfl

theorem newline_notMem_writeLabel (h : KeyPlain l.key) : (10 : UInt8) ∉ writeLabel l := by
  have hkey : (10 : UInt8) ∉ l.key := fun hm => (h 10 hm).2 rfl
  simp only [writeLabel, List.mem_append, List.mem_cons, List.not_mem_nil, or_false, not_or]
  exact ⟨hkey, by decide, by decide, newline_notMem_escape l.value, by decide⟩

theorem newline_notMem_writeLabels {labels : List Label} (h : ∀ l ∈ labels, KeyPlain l.key) :
    (10 : UInt8) ∉ writeLabels labels := by
  cases labels with
  | nil => exact List.not_mem_nil
  | cons l ls =>
    have hmore : (10 : UInt8) ∉ writeMore ls := by
      intro hm
      obtain ⟨l', hl', hc⟩ := List.mem_flatMap.1 hm
      rcases List.mem_cons.1 hc with hc | hc
      · exact absurd hc (by decide)
      · exact newline_notMem_writeLabel (h l' (List.mem_cons_of_mem l hl')) hc
    simp only [writeLabels, List.mem_cons, List.mem_append, List.not_mem_nil, or_false, not_or]
    exact ⟨by decide, ⟨newline_notMem_writeLabel (h l List.mem_cons_self), hmore⟩, by decide⟩

theorem newline_notMem_write : ∀ {l : Line}, l.Plain → (10 : UInt8) ∉ l.write
  | .help name text, h => by
    simp only [Line.write, List.mem_append, List.mem_cons, not_or]
    exact ⟨by decide, newline_notMem_name h.1, by decide, h.2⟩
  | .type name kind, h => by
    simp only [Line.write, List.mem_append, List.mem_cons, not_or]
    exact ⟨by decide, newline_notMem_name h.1, by decide, h.2⟩
  | .sample name labels value, h => by
    simp only [Line.write, List.mem_append, List.mem_cons, not_or]
    exact ⟨newline_notMem_name h.1, newline_notMem_writeLabels h.2.1, by decide, h.2.2⟩

theorem splitLines_line : ∀ {b : List UInt8} (r : List UInt8), (10 : UInt8) ∉ b →
    splitLines (b ++ 10 :: r) = b :: splitLines r
  | [], r, _ => by rw [List.nil_append, splitLines, if_pos rfl]
  | c :: b, r, h => by
    have hc : c ≠ 10 := fun hc => h (hc ▸ List.mem_cons_self)
    rw [List.cons_append, splitLines, if_neg hc, splitLines_line r fun hb => h (List.mem_cons_of_mem c hb)]

/-- **A page is read back**, line by line. -/
theorem readPage_writePage : ∀ {ls : List Line}, (∀ l ∈ ls, l.Plain) → readPage (writePage ls) = some ls
  | [], _ => rfl
  | l :: ls, h => by
    have hl := h l List.mem_cons_self
    have ih : readLines (splitLines (writePage ls)) = some ls :=
      readPage_writePage fun l' hl' => h l' (List.mem_cons_of_mem l hl')
    rw [readPage, writePage_cons, splitLines_line _ (newline_notMem_write hl), readLines, readLine_write hl, ih]

/-! ## Labels by the letter of the format

`readLabels` takes any key and any letter behind a backslash.  `readLabelSet` keeps to the format: a key is a label name,
a value is what `unescape` reads, and nothing follows the brace. -/

def isNameStart (c : UInt8) : Bool := (97 ≤ c && c ≤ 122) || (65 ≤ c && c ≤ 90) || c == 95

def isNameByte (c : UInt8) : Bool := isNameStart c || (48 ≤ c && c ≤ 57)

/-- `[a-zA-Z_][a-zA-Z0-9_]*` -/
def isLabelName : List UInt8 → Bool
  | []      => false
  | c :: cs => isNameStart c && cs.all isNameByte

/-- The labels up to the closing brace, which may stand behind a comma. -/
def readLabelList : Nat → List UInt8 → Option (List Label)
  | 0, _ => none
  | k + 1, b =>
    if b = [125] then some []
    else if isLabelName (b.takeWhile isNameByte) && (b.dropWhile isNameByte).take 2 == [61, 34] then
      match unescape ((b.dropWhile isNameByte).drop 2) with
      | some (v, c :: r) =>
        if c = 125 ∧ r = [] then some [⟨b.takeWhile isNameByte, v⟩]
        else if c = 44 then (readLabelList k r).map fun ls => ⟨b.takeWhile isNameByte, v⟩ :: ls
        else none
      | _ => none
    else none

/-- The labels of a sample, braces included; no text is no labels. -/
def readLabelSet : List UInt8 → Option (List Label)
  | []     => some []
  | c :: r => if c = 123 then readLabelList r.length r else none

theorem isNameByte_of_mem {key : List UInt8} (h : isLabelName key = true) : ∀ b ∈ key, isNameByte b = true := by
  cases key with
  | nil => cases h
  | cons c cs =>
    rw [isLabelName, Bool.and_eq_true] at h
    intro b hb
    rcases List.mem_cons.1 hb with rfl | hb
    · rw [isNameByte, h.1, Bool.true_or]
    · exact List.all_eq_true.1 h.2 b hb

/-- One label, and what follows it. -/
theorem readLabelList_writeLabel (hl : isLabelName l.key = true) (k : Nat) (c : UInt8) (r : List UInt8) :
    readLabelList (k + 1) (writeLabel l ++ c :: r) =
      if c = 125 ∧ r = [] then some [l]
      else if c = 44 then (readLabelList k r).map fun ls => l :: ls else none := by
  have hshape : writeLabel l ++ c :: r = l.key ++ 61 :: (34 :: (escape l.value ++ 34 :: c :: r)) := by
    simp only [writeLabel, List.append_assoc, List.cons_append, List.nil_append]
  have hstop := takeWhile_dropWhile_stop (34 :: (escape l.value ++ 34 :: c :: r)) (isNameByte_of_mem hl)
    (by decide : isNameByte 61 = false)
  have hmore : l.key ++ 61 :: (34 :: (escape l.value ++ 34 :: c :: r)) ≠ [125] := by
    intro h
    have hlen := congrArg List.length h
    simp only [List.length_append, List.length_cons, List.length_nil] at hlen
    omega
  rw [hshape, readLabelList, if_neg hmore, hstop.1, hstop.2, hl]
  simp only [List.take_succ_cons, List.take_zero, BEq.rfl, Bool.and_self, if_true, List.drop_succ_cons, List.drop_zero,
    unescape_escape]

theorem readLabelList_write {ls : List Label} {k : Nat} (h : ∀ l' ∈ l :: ls, isLabelName l'.key = true)
    (hk : ls.length < k) : readLabelList k (writeLabel l ++ writeMore ls ++ [125]) = some (l :: ls) := by
  induction ls generalizing l k with
  | nil =>
    obtain ⟨k, rfl⟩ := Nat.exists_eq_add_one_of_ne_zero (Nat.ne_of_gt hk)
    rw [writeMore, List.flatMap_nil, List.append_nil, readLabelList_writeLabel (h l List.mem_cons_self), if_pos ⟨rfl, rfl⟩]
  | cons l' ls ih =>
    obtain ⟨k, rfl⟩ := Nat.exists_eq_add_one_of_ne_zero (Nat.ne_of_gt (Nat.zero_lt_of_lt hk))
    have hshape : writeLabel l ++ writeMore (l' :: ls) ++ [125] = writeLabel l ++ 44 :: (writeLabel l' ++ writeMore ls ++ [125]) := by
      simp only [writeMore, List.flatMap_cons, List.append_assoc, List.cons_append]
    rw [hshape, readLabelList_writeLabel (h l List.mem_cons_self), if_neg (fun hc => absurd hc.1 (by decide)), if_pos rfl,
      ih (fun x hx => h x (List.mem_cons_of_mem l hx)) (Nat.lt_of_succ_lt_succ hk)]
    rfl

/-- **Labels are read back by the letter of the format**, whatever bytes their values have. -/
theorem readLabelSet_writeLabels {ls : List Label} (h : ∀ l ∈ ls, isLabelName l.key = true) :
    readLabelSet (writeLabels ls) = some ls := by
  cases ls with
  | nil => rfl
  | cons l ls =>
    have hle := length_le_writeMore ls
    rw [writeLabels, readLabelSet, if_pos rfl]
    refine readLabelList_write h ?_
    simp only [List.length_append, List.length_cons, List.length_nil]
    omega

/-! ## Valid pages -/

def Line.helpName : Line → Option (List UInt8)
  | .help name _ => some name
  | _ => none

def Line.typeName : Line → Option (List UInt8)
  | .type name _ => some name
  | _ => none

/-- The name and the labels of a sample. -/
def Line.series : Line → Option (List UInt8 × List Label)
  | .sample name labels _ => some (name, labels)
  | _ => none

def Line.sampleName (l : Line) : Option (List UInt8) := l.series.map (·.1)

/-- Two samples have one name and one set of labels. -/
def SameSeries (s s' : List UInt8 × List Label) : Prop := s.1 = s'.1 ∧ ∀ l, l ∈ s.2 ↔ l ∈ s'.2

instance (s s' : List UInt8 × List Label) : Decidable (SameSeries s s') :=
  decidable_of_iff (s.1 = s'.1 ∧ (∀ l ∈ s.2, l ∈ s'.2) ∧ ∀ l ∈ s'.2, l ∈ s.2)
    (and_congr_right fun _ => ⟨fun h l => ⟨h.1 l, h.2 l⟩, fun h => ⟨fun l => (h l).1, fun l => (h l).2⟩⟩)

/-- Between two samples of a name there is no other line. -/
def Grouped (ls : List Line) : Prop :=
  ∀ i j k : Nat, i ≤ j → j ≤ k → ∀ a b c : Line, ls[i]? = some a → ls[j]? = some b → ls[k]? = some c →
    a.sampleName ≠ none → a.sampleName = c.sampleName → b.sampleName = a.sampleName

structure Valid (ls : List Line) : Prop where
  help_once : (ls.filterMap Line.helpName).Nodup
  type_once : (ls.filterMap Line.typeName).Nodup
  grouped   : Grouped ls
  distinct  : (ls.filterMap Line.series).Pairwise fun s s' => ¬ SameSeries s s'

/-- A text that reads as a valid page. -/
def ValidPage (text : List UInt8) : Prop := ∃ ls, readPage text = some ls ∧ Valid ls

theorem validPage_writePage (h : ∀ l ∈ ls, l.Plain) : ValidPage (writePage ls) ↔ Valid ls := by
  rw [ValidPage, readPage_writePage h]
  constructor
  · rintro ⟨ls', hls, hv⟩
    rwa [Option.some.inj hls]
  · exact fun hv => ⟨ls, rfl, hv⟩

theorem Valid.nil : Valid [] where
  help_once := .nil
  type_once := .nil
  grouped   := fun i j k _ _ a b c ha => by simp at ha
  distinct  := .nil

theorem grouped_singleton (l : Line) : Grouped [l] := by
  intro i j k _ _ a b c ha hb _ _ _
  have hal := List.mem_of_getElem? ha
  have hbl := List.mem_of_getElem? hb
  rw [List.mem_singleton] at hal hbl
  rw [hal, hbl]

theorem Valid.singleton (l : Line) : Valid [l] where
  help_once := by
    cases l with
    | help name text => exact List.nodup_singleton name
    | _ => exact .nil
  type_once := by
    cases l with
    | type name kind => exact List.nodup_singleton name
    | _ => exact .nil
  grouped   := grouped_singleton l
  distinct  := by
    cases l with
    | sample name labels value => exact List.pairwise_singleton _ _
    | _ => exact .nil

/-- Samples of one name whose sets of labels differ. -/
theorem Valid.of_name (name : List UInt8) (hname : ∀ l ∈ ls, l.sampleName = some name)
    (hdistinct : (ls.filterMap Line.series).Pairwise fun s s' => ¬ SameSeries s s') : Valid ls := by
  have hnone : ∀ l ∈ ls, l.helpName = none ∧ l.typeName = none := by
    intro l hl
    have := hname l hl
    cases l with
    | help => cases this
    | type => cases this
    | sample => exact ⟨rfl, rfl⟩
  refine ⟨?_, ?_, ?_, hdistinct⟩
  · rw [List.filterMap_eq_nil_iff.2 fun l hl => (hnone l hl).1]
    exact .nil
  · rw [List.filterMap_eq_nil_iff.2 fun l hl => (hnone l hl).2]
    exact .nil
  · intro i j k _ _ a b c ha hb _ _ _
    rw [hname a (List.mem_of_getElem? ha), hname b (List.mem_of_getElem? hb)]

/-- The name a line is about. -/
def Line.name : Line → List UInt8
  | .help name _     => name
  | .type name _     => name
  | .sample name _ _ => name

/-- Two pages with no name in common. -/
def Apart (a b : List Line) : Prop := ∀ x ∈ a, ∀ y ∈ b, x.name ≠ y.name

theorem Line.name_of_helpName {l : Line} (h : l.helpName = some n) : l.name = n := by
  cases l <;> cases h
  rfl

theorem Line.name_of_typeName {l : Line} (h : l.typeName = some n) : l.name = n := by
  cases l <;> cases h
  rfl

theorem Line.name_of_series {l : Line} {s : List UInt8 × List Label} (h : l.series = some s) : l.name = s.1 := by
  cases l <;> cases h
  rfl

theorem Line.name_of_sampleName {l : Line} (h : l.sampleName = some n) : l.name = n := by
  obtain ⟨s, hs, rfl⟩ := Option.map_eq_some_iff.1 h
  exact l.name_of_series hs

theorem Apart.disjoint {f : Line → Option (List UInt8)} (h : Apart a b) (hf : ∀ {l n}, f l = some n → l.name = n) :
    (a.filterMap f).Disjoint (b.filterMap f) := by
  intro n hna hnb
  obtain ⟨x, hx, hxn⟩ := List.mem_filterMap.1 hna
  obtain ⟨y, hy, hyn⟩ := List.mem_filterMap.1 hnb
  exact h x hx y hy ((hf hxn).trans (hf hyn).symm)

theorem Grouped.append (ha : Grouped a) (hb : Grouped b) (h : Apart a b) : Grouped (a ++ b) := by
  intro i j k hij hjk x y z hx hy hz hne heq
  by_cases hk : k < a.length
  · rw [List.getElem?_append_left (by omega)] at hx hy hz
    exact ha i j k hij hjk x y z hx hy hz hne heq
  · by_cases hi : i < a.length
    · -- the first is a sample of `a`, and the last one of `b`
      rw [List.getElem?_append_left hi] at hx
      rw [List.getElem?_append_right (by omega)] at hz
      obtain ⟨n, hn⟩ := Option.ne_none_iff_exists'.1 hne
      have hzn : z.sampleName = some n := heq ▸ hn
      exact absurd ((x.name_of_sampleName hn).trans (z.name_of_sampleName hzn).symm)
        (h x (List.mem_of_getElem? hx) z (List.mem_of_getElem? hz))
    · rw [List.getElem?_append_right (by omega)] at hx hy hz
      exact hb _ _ _ (by omega) (by omega) x y z hx hy hz hne heq

theorem Apart.distinct (h : Apart a b) (ha : (a.filterMap Line.series).Pairwise fun s s' => ¬ SameSeries s s')
    (hb : (b.filterMap Line.series).Pairwise fun s s' => ¬ SameSeries s s') :
    ((a ++ b).filterMap Line.series).Pairwise fun s s' => ¬ SameSeries s s' := by
  rw [List.filterMap_append, List.pairwise_append]
  refine ⟨ha, hb, fun s hsa s' hsb hsame => ?_⟩
  obtain ⟨x, hx, hxs⟩ := List.mem_filterMap.1 hsa
  obtain ⟨y, hy, hys⟩ := List.mem_filterMap.1 hsb
  exact h x hx y hy (by rw [x.name_of_series hxs, y.name_of_series hys, hsame.1])

/-- **Two valid pages with no name in common make a valid page.** -/
theorem Valid.append (ha : Valid a) (hb : Valid b) (h : Apart a b) : Valid (a ++ b) where
  help_once := by
    rw [List.filterMap_append]
    exact List.Nodup.append ha.help_once hb.help_once (h.disjoint fun {l _} => l.name_of_helpName)
  type_once := by
    rw [List.filterMap_append]
    exact List.Nodup.append ha.type_once hb.type_once (h.disjoint fun {l _} => l.name_of_typeName)
  grouped  := ha.grouped.append hb.grouped h
  distinct := h.distinct ha.distinct hb.distinct

theorem Valid.flatten : ∀ {bs : List (List Line)}, (∀ b ∈ bs, Valid b) → bs.Pairwise Apart → Valid bs.flatten
  | [], _, _ => .nil
  | b :: bs, hv, hp => by
    rw [List.pairwise_cons] at hp
    rw [List.flatten_cons]
    refine (hv b List.mem_cons_self).append (Valid.flatten (fun b' hb' => hv b' (List.mem_cons_of_mem b hb')) hp.2) ?_
    intro x hx y hy
    obtain ⟨b', hb', hy'⟩ := List.mem_flatten.1 hy
    exact hp.1 b' hb' x hx y hy'

/-- A HELP and a TYPE line before samples. -/
theorem Valid.header (name text name' kind : List UInt8) (hs : ∀ l ∈ ls, l.sampleName ≠ none) (hv : Valid ls) :
    Valid (.help name text :: .type name' kind :: ls) := by
  have hnone : ∀ l ∈ ls, l.helpName = none ∧ l.typeName = none := by
    intro l hl
    cases l with
    | help => exact absurd rfl (hs _ hl)
    | type => exact absurd rfl (hs _ hl)
    | sample => exact ⟨rfl, rfl⟩
  have hhelp : ls.filterMap Line.helpName = [] := List.filterMap_eq_nil_iff.2 fun l hl => (hnone l hl).1
  have htype : ls.filterMap Line.typeName = [] := List.filterMap_eq_nil_iff.2 fun l hl => (hnone l hl).2
  refine ⟨?_, ?_, ?_, hv.distinct⟩
  · show (name :: ls.filterMap Line.helpName).Nodup
    rw [hhelp]
    exact List.nodup_singleton name
  · show (name' :: ls.filterMap Line.typeName).Nodup
    rw [htype]
    exact List.nodup_singleton name'
  · -- the two lines are no samples, so the samples are those of `ls`
    intro i j k hij hjk a b c ha hb hc hne heq
    match i, ha with
    | 0, ha =>
      cases ha
      exact absurd rfl hne
    | 1, ha =>
      cases ha
      exact absurd rfl hne
    | i + 2, ha =>
      obtain ⟨j, rfl⟩ : ∃ j', j = j' + 2 := ⟨j - 2, by omega⟩
      obtain ⟨k, rfl⟩ : ∃ k', k = k' + 2 := ⟨k - 2, by omega⟩
      exact hv.grouped i j k (by omega) (by omega) a b c ha hb hc hne heq

end Exposition
end Osw
