import DocumentCommand.Proofs.Text.RoundTrip
import DocumentCommand.Toml.Document

/-!
# Lines of keys and values

Texts whose lines each give a bare key a value on one line: a string in double quotes, a count, or a
truth value.  Which texts those are (`Lines`) is said without regard to how they are scanned; a
string may be written in many ways, since any of its characters may be escaped.  Such a text writes
the table of its lines in their order, and writes nothing when a key comes twice
(`Table.ofText?_lines`).
-/

namespace DocumentCommand.Toml

open Reading (Found)

/-! ### The grammar -/

/-- The marks of numeric escapes and how many digits each of them takes. -/
def numericMarks : List (Char × Nat) :=
  [('x', 2), ('u', 4), ('U', 8)]

/-- How the characters of a string are written between its quotes. -/
inductive Spells : List Char → List Char → Prop where
  | nil : Spells [] []
  | plain {c : Char} {chars text : List Char} : c = '\t' ∨ 0x20 ≤ c.toNat ∧ c.toNat ≠ 0x7f →
      c ≠ '"' → c ≠ '\\' → Spells chars text → Spells (c :: chars) (c :: text)
  | short {e c : Char} {chars text : List Char} : Quoted.shortEscape? e = some c →
      Spells chars text → Spells (c :: chars) ('\\' :: e :: text)
  | numeric {mark c : Char} {digits chars text : List Char} :
      (mark, digits.length) ∈ numericMarks → Text.Hex.natValue? digits = some c.toNat →
      Spells chars text → Spells (c :: chars) ('\\' :: mark :: (digits ++ text))

/-- How a value is written. -/
inductive Writes : Scalar → List Char → Prop where
  | bool (b : Bool) : Writes (.found (.bool b)) (if b then "true" else "false").toList
  | count (n : UInt64) : Writes (.found (.integer n.toNat)) (Text.Digits.ofNat n.toNat)
  | string {s : String} {inside : List Char} : Spells s.toList inside →
      Writes (.found (.string s)) ('"' :: (inside ++ ['"']))

/-- A key that needs no quotes. -/
def IsBare (key : String) : Prop :=
  key.toList ≠ [] ∧ ∀ c ∈ key.toList, isKeyChar c = true

instance : DecidablePred IsBare := fun key =>
  decidable_of_iff (key.toList ≠ [] ∧ key.toList.all isKeyChar = true)
    (and_congr_right fun _ => List.all_eq_true)

/-- A line without its end. -/
def lineText (key : String) (value : List Char) : List Char :=
  key.toList ++ ' ' :: '=' :: ' ' :: value

/-- The end of a line. -/
inductive IsLineEnd : List Char → Prop where
  | feed : IsLineEnd ['\n']
  | carriage : IsLineEnd ['\r', '\n']

/-- A text of one line for each entry.  The last line need not have an end. -/
inductive Lines : List (String × Scalar) → List Char → Prop where
  | nil : Lines [] []
  | last {key : String} {v : Scalar} {value : List Char} : IsBare key → Writes v value →
      Lines [(key, v)] (lineText key value)
  | cons {key : String} {v : Scalar} {value ending text : List Char}
      {entries : List (String × Scalar)} : IsBare key → Writes v value → IsLineEnd ending →
      Lines entries text → Lines ((key, v) :: entries) (lineText key (value ++ (ending ++ text)))

/-! ### Everything can be written -/

theorem exists_spells (chars : List Char) : ∃ text, Spells chars text := by
  induction chars with
  | nil => exact ⟨[], .nil⟩
  | cons c chars ih =>
      obtain ⟨text, spells⟩ := ih
      by_cases quote : c = '"'
      · exact ⟨_, .short (e := '"') (by rw [quote]; rfl) spells⟩
      by_cases backslash : c = '\\'
      · exact ⟨_, .short (e := '\\') (by rw [backslash]; rfl) spells⟩
      by_cases visible : 0x20 ≤ c.toNat ∧ c.toNat ≠ 0x7f
      · exact ⟨_, .plain (.inr visible) quote backslash spells⟩
      · have four : ('u', 4) ∈ numericMarks := by decide
        exact ⟨_, .numeric four (Text.Hex.natValue?_byte (by omega)) spells⟩

theorem exists_lines {entries : List (String × Scalar)}
    (each : ∀ e ∈ entries, IsBare e.1 ∧ ∃ value, Writes e.2 value) :
    ∃ text, Lines entries text := by
  induction entries with
  | nil => exact ⟨[], .nil⟩
  | cons e entries ih =>
      obtain ⟨⟨bare, value, writes⟩, each⟩ := List.forall_mem_cons.1 each
      obtain ⟨text, lines⟩ := ih each
      exact ⟨_, .cons bare writes .feed lines⟩

/-! ### Strings -/

namespace Quoted

theorem ofDigits?_eq_some {digits : List Char} {c : Char}
    (digit : Text.Hex.natValue? digits = some c.toNat) : ofDigits? digits = some c := by
  have valid : c.toNat.isValidChar := c.valid
  rw [ofDigits?, digit, Option.bind_some, dif_pos valid]
  rfl

theorem scanBasic?_plain {c : Char} (visible : c = '\t' ∨ 0x20 ≤ c.toNat ∧ c.toNat ≠ 0x7f)
    (quote : c ≠ '"') (backslash : c ≠ '\\') (rest : List Char) :
    scanBasic? (c :: rest) = prepend c (scanBasic? rest) := by
  have plain : (isPlain c && c != '\\') = true := by
    simpa [isPlain, backslash] using visible
  rw [scanBasic?.eq_7 _ _ quote (by simp [backslash]) (by simp [backslash]) (by simp [backslash])
    (by simp [backslash]), if_pos plain]

theorem scanBasic?_short {e c : Char} (short : shortEscape? e = some c) (rest : List Char) :
    scanBasic? ('\\' :: e :: rest) = prepend c (scanBasic? rest) := by
  unfold shortEscape? at short
  split at short <;> cases short <;> rfl

theorem scanBasic?_numeric {mark c : Char} {digits : List Char}
    (sized : (mark, digits.length) ∈ numericMarks)
    (value : Text.Hex.natValue? digits = some c.toNat) (rest : List Char) :
    scanBasic? ('\\' :: mark :: (digits ++ rest)) = prepend c (scanBasic? rest) := by
  have read := ofDigits?_eq_some value
  simp only [numericMarks, List.mem_cons, Prod.mk.injEq, List.not_mem_nil, or_false] at sized
  rcases sized with ⟨rfl, two⟩ | ⟨rfl, four⟩ | ⟨rfl, eight⟩
  · match digits, two with
    | [a, b], _ => simp only [List.cons_append, List.nil_append, scanBasic?, read, Option.bind_some]
  · match digits, four with
    | [a, b, c, d], _ =>
      simp only [List.cons_append, List.nil_append, scanBasic?, read, Option.bind_some]
  · match digits, eight with
    | [a, b, c, d, e, f, g, h], _ =>
      simp only [List.cons_append, List.nil_append, scanBasic?, read, Option.bind_some]

/-- A string that is spelled out is scanned up to its closing quote. -/
theorem scanBasic?_append {chars text : List Char} (spells : Spells chars text)
    (rest : List Char) : scanBasic? (text ++ '"' :: rest) = some (chars, rest) := by
  induction spells with
  | nil => rfl
  | plain visible quote backslash _ ih =>
      rw [List.cons_append, scanBasic?_plain visible quote backslash, ih]
      rfl
  | short escape _ ih =>
      rw [List.cons_append, List.cons_append, scanBasic?_short escape, ih]
      rfl
  | numeric sized value _ ih =>
      rw [List.cons_append, List.cons_append, List.append_assoc, scanBasic?_numeric sized value, ih]
      rfl

theorem head?_ne_quote {chars text : List Char} (spells : Spells chars text) :
    text.head? ≠ some '"' := by
  cases spells with
  | nil => simp
  | plain _ quote _ _ => simpa using quote
  | short _ _ => simp
  | numeric _ _ _ => simp

/-- A string in two quotes is not taken for one in three. -/
theorem scan?_string {s : String} {inside rest : List Char} (spells : Spells s.toList inside)
    (ends : rest.head? ≠ some '"') : scan? ('"' :: (inside ++ '"' :: rest)) = some (s, rest) := by
  have single : ∀ more, inside ++ '"' :: rest = '"' :: '"' :: more → False := by
    intro more three
    cases inside with
    | nil =>
        obtain ⟨-, tail⟩ := List.cons.inj three
        exact ends (by rw [tail]; rfl)
    | cons c inside =>
        obtain ⟨head, -⟩ := List.cons.inj three
        exact head?_ne_quote spells (by rw [head]; rfl)
  have scanned := scanBasic?_append spells rest
  generalize inside ++ '"' :: rest = text at single scanned
  -- The alternative of three quotes is ruled out by `single`.
  simp only [scan?, scanned, Option.map_some, String.ofList_toList]

end Quoted

/-! ### Runs -/

/-- What may follow a value on its line: the end of the line, or nothing. -/
def EndsLine (rest : List Char) : Prop :=
  ∀ c ∈ rest.head?, c = '\n' ∨ c = '\r'

theorem EndsLine.nil : EndsLine [] := by
  intro c first
  contradiction

theorem IsLineEnd.endsLine {ending : List Char} (isEnd : IsLineEnd ending) (rest : List Char) :
    EndsLine (ending ++ rest) := by
  cases isEnd <;> simp [EndsLine]

namespace Scalar

theorem isRunChar_of_isDigit {c : Char} (digit : c.isDigit = true) : isRunChar c = true := by
  simp [isRunChar, Char.isAlphanum, digit]

/-- A run stops at the end of its line. -/
theorem scanRun_append {run rest : List Char} (all : ∀ c ∈ run, isRunChar c = true)
    (ends : EndsLine rest) : scanRun (run ++ rest) = (run, rest) := by
  have stops : ∀ c ∈ rest.head?, isRunChar c = false := by
    intro c first
    rcases ends c first with rfl | rfl <;> decide
  simp only [scanRun, Text.takeWhile_append all stops, Text.dropWhile_append all stops]
  split
  · -- A blank goes on with a time of day, and no line ends with one.
    rcases ends ' ' rfl with same | same <;> cases same
  · rfl

section Digits

variable {text : List Char}

/-- Behind a number of fixed width only digits go on, where there are only digits. -/
theorem expect?_eq_none_of_readFixed? {c : Char} {count n : Nat} {rest : List Char}
    (other : c.isDigit = false) (all : ∀ d ∈ text, d.isDigit = true)
    (read : Text.Digits.readFixed? count text = some (n, rest)) :
    Text.Digits.expect? c rest = none := by
  apply Text.Digits.expect?_eq_none
  intro member
  rw [← Text.Digits.drop_eq_of_readFixed? read] at member
  exact absurd (all c (List.mem_of_mem_drop member)) (by simp [other])

theorem isDateTime_digits (all : ∀ d ∈ text, d.isDigit = true) : isDateTime text = false := by
  have noDate : afterDate? text = none := by
    rw [afterDate?]
    cases scanned : Text.Digits.readFixed? 4 text with
    | none => rfl
    | some found =>
        obtain ⟨year, rest⟩ := found
        have noDash := expect?_eq_none_of_readFixed? (c := '-') rfl all scanned
        rw [Option.bind_eq_bind, Option.bind_some]
        exact congrArg (Option.bind · _) noDash
  have noMinutes : afterMinutes? text = none := by
    rw [afterMinutes?]
    cases scanned : Text.Digits.readFixed? 2 text with
    | none => rfl
    | some found =>
        obtain ⟨hour, rest⟩ := found
        have noColon := expect?_eq_none_of_readFixed? (c := ':') rfl all scanned
        rw [Option.bind_eq_bind, Option.bind_some]
        exact congrArg (Option.bind · _) noColon
  have noTime : afterTime? text = none := by
    rw [afterTime?, noMinutes]
    rfl
  simp [isDateTime, noDate, noTime]

/-- Digits without underscores are all kept. -/
theorem digits?_digits (nonempty : text ≠ []) (all : ∀ d ∈ text, d.isDigit = true) :
    digits? Char.isDigit text = some text := by
  have noScore : '_' ∉ text := fun member => absurd (all '_' member) (by decide)
  have kept : text.filter (· ≠ '_') = text := by
    apply List.filter_eq_self.2
    intro d member
    have other : d ≠ '_' := ne_of_mem_of_not_mem member noScore
    simpa using other
  have first : text.head? ≠ some '_' := fun head => noScore (List.mem_of_head? head)
  have last : text.getLast? ≠ some '_' := fun last => noScore (List.mem_of_getLast? last)
  have single : ('_', '_') ∉ text.zip text.tail :=
    fun member => noScore (List.of_mem_zip member).1
  simp only [digits?, kept]
  apply if_pos
  refine ⟨nonempty, ?_, List.all_eq_true.2 all⟩
  simp [first, last, single]

theorem wholeDigits?_ofNat (n : Nat) :
    wholeDigits? (Text.Digits.ofNat n) = some (Text.Digits.ofNat n) := by
  have digits := digits?_digits (Text.Digits.ofNat_ne_nil n)
    fun _ => Text.Digits.isDigit_of_mem_ofNat
  rw [wholeDigits?, digits, Option.bind_eq_bind, Option.bind_some]
  by_cases zero : (Text.Digits.ofNat n).head? = some '0'
  · rw [Text.Digits.ofNat_eq_zero_of_head? zero]
    rfl
  · have leading : (decide ((Text.Digits.ofNat n).head? ≠ some '0')
        || (Text.Digits.ofNat n).length == 1) = true := by simp [zero]
    exact congrArg (Option.bind · fun _ => some (Text.Digits.ofNat n)) (if_pos leading)

theorem integer?_ofNat (n : Nat) : integer? (Text.Digits.ofNat n) = some (ofInteger n) := by
  have all : ∀ d ∈ Text.Digits.ofNat n, d.isDigit = true :=
    fun _ => Text.Digits.isDigit_of_mem_ofNat
  have whole := wholeDigits?_ofNat n
  have value := Text.Digits.value_ofNat n
  generalize Text.Digits.ofNat n = text at all whole value
  have unsigned : sign text = (false, text) := by
    unfold sign
    split
    · exact absurd (all '-' List.mem_cons_self) (by decide)
    · exact absurd (all '+' List.mem_cons_self) (by decide)
    · rfl
  -- Digits hold no mark of another base.
  unfold integer?
  split
  · exact absurd (all 'x' (by simp)) (by decide)
  · exact absurd (all 'o' (by simp)) (by decide)
  · exact absurd (all 'b' (by simp)) (by decide)
  · simp only [unsigned, whole, Option.map_some, value]
    rfl

/-- A numeral is a run that means its number. -/
theorem ofRun?_ofNat (n : Nat) : ofRun? (Text.Digits.ofNat n) = some (ofInteger n) := by
  have all : ∀ d ∈ Text.Digits.ofNat n, d.isDigit = true :=
    fun _ => Text.Digits.isDigit_of_mem_ofNat
  have noWord {c : Char} {word : List Char} (member : c ∈ word) (other : c.isDigit = false) :
      Text.Digits.ofNat n ≠ word := by
    intro same
    rw [all c (same ▸ member)] at other
    cases other
  have notTrue : Text.Digits.ofNat n ≠ "true".toList := noWord (c := 't') (by decide) rfl
  have notFalse : Text.Digits.ofNat n ≠ "false".toList := noWord (c := 'f') (by decide) rfl
  rw [ofRun?, if_neg notTrue, if_neg notFalse, isDateTime_digits all, integer?_ofNat]
  rfl

end Digits

end Scalar

/-! ### Values -/

/-- What is not in brackets is a string where it starts with a quote and else a run. -/
theorem scanValue?_cons {c : Char} (notArray : c ≠ '[') (notTable : c ≠ '\x7b') (fuel room : Nat)
    (rest : List Char) :
    scanValue? (fuel + 1) room (c :: rest)
      = if c = '"' ∨ c = '\'' then
          (Quoted.scan? (c :: rest)).map fun (s, rest) => (.found (.string s), rest)
        else
          (Scalar.ofRun? (Scalar.scanRun (c :: rest)).1).map
            (·, (Scalar.scanRun (c :: rest)).2) := by
  rw [scanValue?.eq_def]
  dsimp only
  split
  · contradiction
  · next same => exact absurd (List.cons.inj same).1 notArray
  · next same => exact absurd (List.cons.inj same).1 notTable
  · next same _ _ =>
      cases same
      rfl

theorem scanValue?_run {c : Char} {run rest : List Char} {v : Scalar}
    (all : ∀ d ∈ c :: run, Scalar.isRunChar d = true) (means : Scalar.ofRun? (c :: run) = some v)
    (ends : EndsLine rest) (fuel room : Nat) :
    scanValue? (fuel + 1) room (c :: run ++ rest) = some (v, rest) := by
  have other (d : Char) (never : Scalar.isRunChar d = false) : c ≠ d := by
    rintro rfl
    rw [all c List.mem_cons_self] at never
    cases never
  have unquoted : ¬(c = '"' ∨ c = '\'') := not_or.2 ⟨other '"' rfl, other '\'' rfl⟩
  have scanned := Scalar.scanRun_append all ends
  rw [List.cons_append] at scanned ⊢
  rw [scanValue?_cons (other '[' rfl) (other '\x7b' rfl), if_neg unquoted, scanned, means]
  rfl

theorem scanValue?_string {s : String} {inside rest : List Char} (spells : Spells s.toList inside)
    (ends : EndsLine rest) (fuel room : Nat) :
    scanValue? (fuel + 1) room ('"' :: (inside ++ '"' :: rest))
      = some (.found (.string s), rest) := by
  have apart : rest.head? ≠ some '"' := by
    intro head
    rcases ends '"' head with same | same <;> cases same
  rw [scanValue?_cons (by decide) (by decide), if_pos (.inl rfl), Quoted.scan?_string spells apart]
  rfl

/-- A value that is written is scanned up to the end of its line. -/
theorem scanValue?_append {v : Scalar} {value rest : List Char} (writes : Writes v value)
    (ends : EndsLine rest) (fuel room : Nat) :
    scanValue? (fuel + 1) room (value ++ rest) = some (v, rest) := by
  cases writes with
  | bool b =>
      cases b <;> exact scanValue?_run (List.all_eq_true.1 rfl) rfl ends fuel room
  | count n =>
      have all : ∀ d ∈ Text.Digits.ofNat n.toNat, Scalar.isRunChar d = true :=
        fun d member => Scalar.isRunChar_of_isDigit (Text.Digits.isDigit_of_mem_ofNat member)
      have means := Scalar.ofRun?_ofNat n.toNat
      have fits : Scalar.ofInteger n.toNat = .found (.integer n.toNat) := by
        have := n.toNat_lt_size
        have least : Int64.minValue.toInt ≤ 0 := by decide
        exact if_pos (by omega)
      rw [fits] at means
      cases digits : Text.Digits.ofNat n.toNat with
      | nil => exact absurd digits (Text.Digits.ofNat_ne_nil _)
      | cons c run =>
          rw [digits] at all means
          exact scanValue?_run all means ends fuel room
  | string spells =>
      rw [List.cons_append, List.append_assoc]
      exact scanValue?_string spells ends fuel room

theorem Writes.head {v : Scalar} {value : List Char} (writes : Writes v value) :
    ∃ c rest, value = c :: rest ∧ c ≠ ' ' ∧ c ≠ '\t' := by
  cases writes with
  | bool b => cases b <;> exact ⟨_, _, rfl, by decide, by decide⟩
  | count n =>
      cases digits : Text.Digits.ofNat n.toNat with
      | nil => exact absurd digits (Text.Digits.ofNat_ne_nil _)
      | cons c rest =>
          have digit : c.isDigit = true :=
            Text.Digits.isDigit_of_mem_ofNat (digits ▸ List.mem_cons_self)
          refine ⟨c, rest, rfl, ?_, ?_⟩ <;> rintro rfl <;> cases digit
  | string _ => exact ⟨_, _, rfl, by decide, by decide⟩

/-! ### Lines -/

section Lines

variable {key : String} {v : Scalar} {value : List Char}

theorem IsBare.head (bare : IsBare key) (value : List Char) :
    ∃ c rest, lineText key value = c :: rest ∧ isKeyChar c = true := by
  obtain ⟨nonempty, all⟩ := bare
  cases chars : key.toList with
  | nil => contradiction
  | cons c rest =>
      have first : c ∈ key.toList := by
        rw [chars]
        exact List.mem_cons_self
      exact ⟨c, rest ++ ' ' :: '=' :: ' ' :: value, by rw [lineText, chars]; rfl, all c first⟩

theorem ne_of_isKeyChar {c d : Char} (inKey : isKeyChar c = true) (never : isKeyChar d = false) :
    c ≠ d := by
  rintro rfl
  rw [inKey] at never
  cases never

/-- A bare key is scanned up to the blank behind it. -/
theorem scanKeyPart?_lineText (bare : IsBare key) (value : List Char) :
    scanKeyPart? (lineText key value) = some (key, ' ' :: '=' :: ' ' :: value) := by
  have stops : ∀ c ∈ (' ' :: '=' :: ' ' :: value).head?, isKeyChar c = false := by
    rintro c ⟨⟩
    rfl
  have taken : (lineText key value).takeWhile isKeyChar = key.toList :=
    Text.takeWhile_append bare.2 stops
  have left : (lineText key value).dropWhile isKeyChar = ' ' :: '=' :: ' ' :: value :=
    Text.dropWhile_append bare.2 stops
  obtain ⟨c, rest, first, inKey⟩ := bare.head value
  have double := ne_of_isKeyChar inKey (d := '"') rfl
  have single := ne_of_isKeyChar inKey (d := '\'') rfl
  unfold scanKeyPart?
  split
  · next same =>
      rw [first] at same
      exact absurd (List.cons.inj same).1 double
  · next same =>
      rw [first] at same
      exact absurd (List.cons.inj same).1 single
  · rw [taken, left]
    simp [bare.1]

theorem scanKey?_lineText (bare : IsBare key) (value : List Char) :
    scanKey? (lineText key value) = some ([key], '=' :: ' ' :: value) := by
  obtain ⟨n, length⟩ : ∃ n, (lineText key value).length = n + 1 := by
    refine ⟨key.toList.length + 2 + value.length, ?_⟩
    simp [lineText]
    omega
  have parts : scanKeyParts? (n + 1) (lineText key value)
      = some ([key], '=' :: ' ' :: value) := by
    rw [scanKeyParts?, scanKeyPart?_lineText bare]
    rfl
  rw [scanKey?, length, parts]
  rfl

theorem dropGap?_of_isKeyChar {c : Char} (inKey : isKeyChar c = true) (rest : List Char) :
    dropGap? false (c :: rest) = some (c :: rest) := by
  have feed := ne_of_isKeyChar inKey (d := '\n') rfl
  have carriage := ne_of_isKeyChar inKey (d := '\r') rfl
  have blank : ¬(c = ' ' ∨ c = '\t') :=
    not_or.2 ⟨ne_of_isKeyChar inKey rfl, ne_of_isKeyChar inKey rfl⟩
  have comment := ne_of_isKeyChar inKey (d := '#') rfl
  unfold dropGap?
  split
  · contradiction
  · next same => exact absurd (List.cons.inj same).1 feed
  · next same => exact absurd (List.cons.inj same).1 carriage
  · next same =>
      cases same
      rw [if_neg Bool.false_ne_true, if_neg blank, if_neg comment]

/-- One line gives its key its value. -/
theorem scanLines?_lineText (bare : IsBare key) (writes : Writes v value) {rest after : List Char}
    (ends : EndsLine rest) (ended : dropLineEnd? false rest = some after) (fuel : Nat)
    (table : Table) :
    scanLines? (fuel + 1) [] table (lineText key (value ++ rest))
      = (table.assign v [key]).bind fun table => scanLines? fuel [] table after := by
  obtain ⟨c, more, line, inKey⟩ := bare.head (value ++ rest)
  obtain ⟨d, others, first, notBlank, notTab⟩ := writes.head
  have gap : dropGap? false (lineText key (value ++ rest))
      = some (lineText key (value ++ rest)) := by
    rw [line]
    exact dropGap?_of_isKeyChar inKey _
  have blanks : dropBlanks (' ' :: (value ++ rest)) = value ++ rest := by
    simp [dropBlanks, first, notBlank, notTab]
  have noHeader := ne_of_isKeyChar inKey (d := '[') rfl
  have scanned := scanKey?_lineText bare (value ++ rest)
  have valued : scanValue? (2 * (lineText key (value ++ rest)).length + 2) maxDepth (value ++ rest)
      = some (v, rest) := scanValue?_append writes ends _ maxDepth
  rw [scanLines?, gap, Option.bind_eq_bind, Option.bind_some]
  split
  · next same =>
      rw [line] at same
      cases same
  · next same =>
      rw [line] at same
      exact absurd (List.cons.inj same).1 noHeader
  · next same =>
      rw [line] at same
      exact absurd (List.cons.inj same).1 noHeader
  · simp only [scanned, blanks, valued, ended, Option.bind_eq_bind, Option.bind_some]
    rfl

end Lines

/-! ### Tables -/

namespace Table

/-- The table of keys that each have a value. -/
def ofEntries (entries : List (String × Scalar)) : Table :=
  entries.map fun e => (e.1, .value e.2)

/-- A key that has a value already is not given another. -/
theorem assign_ofEntries (entries : List (String × Scalar)) (key : String) (v : Scalar) :
    (ofEntries entries).assign v [key]
      = if key ∈ entries.map Prod.fst then none else some (ofEntries (entries ++ [(key, v)])) := by
  induction entries with
  | nil => rfl
  | cons e entries ih =>
      rw [assign] at ih ⊢
      rw [ofEntries, List.map_cons, alter]
      by_cases same : e.1 = key
      · simp [same]
      · have other : ¬key = e.1 := fun equal => same equal.symm
        have step := ih
        rw [ofEntries] at step
        simp only [if_neg same, step, List.map_cons, List.mem_cons, other, false_or]
        split <;> rfl

/-- The lines of a text are added one after another. -/
theorem scanLines?_lines {entries : List (String × Scalar)} {text : List Char}
    (lines : Lines entries text) {fuel : Nat} (enough : text.length < fuel) (table : Table) :
    scanLines? fuel [] table text = entries.foldlM (fun t e => t.assign e.2 [e.1]) table := by
  induction lines generalizing fuel table with
  | nil =>
      cases fuel with
      | zero => contradiction
      | succ fuel => rfl
  | @last key v value bare writes =>
      obtain _ | _ | fuel := fuel
      · contradiction
      · simp [lineText] at enough
      · have line := scanLines?_lineText bare writes EndsLine.nil rfl (fuel + 1) table
        rw [List.append_nil] at line
        rw [line]
        rfl
  | @cons key v value ending text entries bare writes isEnd lines ih =>
      cases fuel with
      | zero => contradiction
      | succ fuel =>
          have ended : dropLineEnd? false (ending ++ text) = some text := by
            cases isEnd <;> rfl
          rw [scanLines?_lineText bare writes (isEnd.endsLine text) ended, List.foldlM_cons]
          refine congrArg _ (funext fun t => ih ?_ t)
          simp [lineText] at enough
          omega

/-- Entries are added to a table unless a key comes twice. -/
theorem foldlM_assign (entries : List (String × Scalar)) {before : List (String × Scalar)}
    (distinct : (before.map Prod.fst).Nodup) :
    entries.foldlM (fun t e => assign e.2 [e.1] t) (ofEntries before)
      = if ((before ++ entries).map Prod.fst).Nodup then some (ofEntries (before ++ entries))
        else none := by
  induction entries generalizing before with
  | nil => simp [distinct]
  | cons e entries ih =>
      rw [List.foldlM_cons, assign_ofEntries]
      by_cases again : e.1 ∈ before.map Prod.fst
      · have twice : ¬((before ++ e :: entries).map Prod.fst).Nodup := by
          rw [List.map_append, List.nodup_append]
          rintro ⟨-, -, apart⟩
          exact apart _ again _ List.mem_cons_self rfl
        rw [if_pos again, if_neg twice]
        rfl
      · have longer : ((before ++ [e]).map Prod.fst).Nodup := by
          rw [List.map_append, List.nodup_append]
          refine ⟨distinct, by simp, ?_⟩
          rintro a earlier b last rfl
          obtain rfl := List.mem_singleton.1 last
          exact again earlier
        have later := ih longer
        rw [List.append_assoc] at later
        rw [if_neg again]
        exact later

end Table

theorem Lines.head {entries : List (String × Scalar)} {text : List Char}
    (lines : Lines entries text) : ∀ c ∈ text.head?, isKeyChar c = true := by
  have first {key : String} (bare : IsBare key) (value : List Char) :
      ∀ c ∈ (lineText key value).head?, isKeyChar c = true := by
    obtain ⟨d, rest, line, inKey⟩ := bare.head value
    intro c head
    rw [line] at head
    cases head
    exact inKey
  cases lines with
  | nil => exact fun _ head => absurd head (by simp)
  | last bare _ => exact first bare _
  | cons bare _ _ _ => exact first bare _

/-- A text of lines writes their entries in order, and nothing when a key comes twice. -/
theorem Table.ofText?_lines {entries : List (String × Scalar)} {text : List Char}
    (lines : Lines entries text) :
    ofText? text = if (entries.map Prod.fst).Nodup then some (ofEntries entries) else none := by
  have scanned := scanLines?_lines lines (Nat.lt_succ_self _) (ofEntries [])
  rw [foldlM_assign entries (by simp)] at scanned
  rw [ofText?]
  · exact scanned
  · rintro rest rfl
    exact absurd (lines.head '\ufeff' rfl) (by decide)

end DocumentCommand.Toml
