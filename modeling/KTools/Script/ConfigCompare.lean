import Mathlib.Data.List.Infix

/-!
# Comparing two kernel configurations

`kernel_config_compare.sh` prints the options that one configuration adds to and misses from the other, as
lines that start with `+ ` and `- `; `weed_out_configured.sh` picks the missing lines out of that text with
`grep` and splits them by whether their option is set in a third file. Between the two a line goes twice
through an unquoted `echo`, which splits it into words, expands the words that are patterns of file names and
joins the result with single blanks (`Glob.echo`). The names survive that (`echo_name`), the values need not.

The files are right (`Comparison.Exact`) exactly when no added line looks like a missing one, the names of the
missing lines are found in the option file only at the start of a line, and the lines that are kept survive
the two `echo` commands (`Comparison.exact_iff`).
-/

namespace KTools.Script

abbrev Line := List Char

/-! ### The shell -/

def isBlank (c : Char) : Bool := c == ' ' || c == '\t'

/-- Word splitting of an unquoted expansion. -/
def splitWords (line : Line) : List Line := (line.splitOnP isBlank).filter (· ≠ [])

/-- The characters that make a word a pattern of file names. -/
def isPattern (word : Line) : Bool := word.any fun c => c == '*' || c == '?' || c == '['

/-- A character that stands for itself in a pattern. -/
def isLiteral (c : Char) : Bool := !(c == '*' || c == '?' || c == '[' || c == '\\')

/-- Pathname expansion in a directory: the file names that match a pattern. -/
structure Glob where
  names : Line → List Line
  /-- A name that matches begins with the characters before the first special one. -/
  literal : ∀ word, ∀ name ∈ names word, word.takeWhile isLiteral <+: name
  /-- No file name has a line break in it. -/
  oneLine : ∀ word, ∀ name ∈ names word, '\n' ∉ name

namespace Glob
variable (g : Glob)

/-- A pattern that matches no file name stays as it is. -/
def expandWord (word : Line) : List Line :=
  if isPattern word = true ∧ g.names word ≠ [] then g.names word else [word]

/-- What `echo` prints for an unquoted expansion of a text whose first word is no option of `echo`. -/
def echo (line : Line) : Line := [' '].intercalate ((splitWords line).flatMap g.expandWord)

end Glob

/-! ### `kernel_config_compare.sh` -/

/-- `cnt` after the inner loop, which stops at the first line that is equal to `line`. -/
def countMismatches (line : Line) : List Line → Nat → Nat
  | [], cnt => cnt
  | other :: rest, cnt => if line = other then cnt else countMismatches line rest (cnt + 1)

/-- The lines of one file that are not in the other, printed after a sign. -/
def printMissing (g : Glob) (sign : Char) (lines others : List Line) : List Line :=
  (lines.filter fun line => countMismatches line others 0 = others.length).map fun line =>
    sign :: ' ' :: g.echo line

/-- `---ADDED---` and `---MISSING---`. -/
def addedHead : Line := ['-', '-', '-', 'A', 'D', 'D', 'E', 'D', '-', '-', '-']
def missingHead : Line := ['-', '-', '-', 'M', 'I', 'S', 'S', 'I', 'N', 'G', '-', '-', '-']

/-- `grep = $1 |sort`; the collation order is the locale's. -/
def grepSort (collate : Line → Line → Bool) (lines : List Line) : List Line :=
  (lines.filter fun line => '=' ∈ line).mergeSort collate

def kernelConfigCompare (g : Glob) (collate : Line → Line → Bool) (base compare : List Line) : List Line :=
  let baseCfg := grepSort collate base
  let compareCfg := grepSort collate compare
  addedHead :: printMissing g '+' baseCfg compareCfg ++
    missingHead :: printMissing g '-' compareCfg baseCfg

/-! ### `weed_out_configured.sh` -/

def dashBlank : Line := ['-', ' ']

/-- `grep -e "- " $1 |cut -c 3-`. -/
def missingTxt (lines : List Line) : List Line :=
  (lines.filter fun line => dashBlank <:+: line).map (List.drop 2)

structure Weeded where
  reallyMissing : List Line
  repeated : List Line

/-- The inner loop over the option file: `token` without pattern characters is found anywhere in a line. -/
def optionLoop (g : Glob) (token : Line) : List Line → Nat → Weeded → Nat × Weeded
  | [], cnt, out => (cnt, out)
  | option :: rest, cnt, out =>
    if token <:+: option then (cnt, { out with repeated := out.repeated ++ [g.echo token] })
    else optionLoop g token rest (cnt + 1) out

/-- ``token=`echo $line |awk -F "=" '{print $1}'`=``. -/
def tokenOf (g : Glob) (line : Line) : Line := (g.echo line).takeWhile (· ≠ '=') ++ ['=']

def weedLine (g : Glob) (options : List Line) (line : Line) (out : Weeded) : Weeded :=
  let r := optionLoop g (tokenOf g line) options 0 out
  if r.1 = options.length then { r.2 with reallyMissing := r.2.reallyMissing ++ [g.echo line] } else r.2

/-- The loop over `missing.txt`; the directory is the one at the time of each line. -/
def weedLoop (g : Nat → Glob) (options : List Line) : Nat → List Line → Weeded → Weeded
  | _, [], out => out
  | i, line :: rest, out => weedLoop g options (i + 1) rest (weedLine (g i) options line out)

/-- `read` and `wc -l` leave out the part of the option file after its last line break: `options` are the
lines before it. -/
def weedOutConfigured (g : Nat → Glob) (options : List Line) (output : List Line) : Weeded :=
  weedLoop g options 0 (missingTxt output) ⟨[], []⟩

/-! ### The loops -/

theorem countMismatches_eq_iff (line : Line) (others : List Line) :
    ∀ cnt, countMismatches line others cnt = cnt + others.length ↔ line ∉ others := by
  induction others with
  | nil => intro cnt; simp [countMismatches]
  | cons other rest ih =>
    intro cnt
    have hrest := ih (cnt + 1)
    rw [countMismatches, List.length_cons, List.mem_cons, not_or]
    by_cases h : line = other
    · rw [if_pos h]
      exact iff_of_false (by omega) fun hne => hne.1 h
    · rw [if_neg h, ← hrest]
      constructor
      · intro hcount
        exact ⟨h, by omega⟩
      · rintro ⟨-, hcount⟩
        omega

/-- The lines of one file that are not in the other. -/
def notIn (others lines : List Line) : List Line := lines.filter fun line => line ∉ others

theorem printMissing_eq (g : Glob) (sign : Char) (lines others : List Line) :
    printMissing g sign lines others = (notIn others lines).map fun line => sign :: ' ' :: g.echo line := by
  unfold printMissing notIn
  congr 1
  refine List.filter_congr fun line _ => ?_
  have h := countMismatches_eq_iff line others 0
  rw [Nat.zero_add] at h
  exact decide_eq_decide.2 h

theorem optionLoop_of_forall_not (g : Glob) {token : Line} {options : List Line}
    (h : ∀ o ∈ options, ¬ token <:+: o) (out : Weeded) :
    ∀ cnt, optionLoop g token options cnt out = (cnt + options.length, out) := by
  induction options with
  | nil => intro cnt; rfl
  | cons option rest ih =>
    intro cnt
    rw [optionLoop, if_neg (h option List.mem_cons_self), ih (fun o ho => h o (List.mem_cons_of_mem _ ho)),
      List.length_cons, Nat.add_right_comm, Nat.add_assoc]

theorem optionLoop_of_exists (g : Glob) {token : Line} {options : List Line}
    (h : ∃ o ∈ options, token <:+: o) (out : Weeded) :
    ∀ cnt, ∃ n < cnt + options.length,
      optionLoop g token options cnt out = (n, { out with repeated := out.repeated ++ [g.echo token] }) := by
  induction options with
  | nil =>
    obtain ⟨o, ho, -⟩ := h
    exact absurd ho List.not_mem_nil
  | cons option rest ih =>
    intro cnt
    rw [optionLoop, List.length_cons]
    by_cases hoption : token <:+: option
    · rw [if_pos hoption]
      exact ⟨cnt, by omega, rfl⟩
    · have hrest : ∃ o ∈ rest, token <:+: o := by
        obtain ⟨o, ho, htoken⟩ := h
        rcases List.mem_cons.1 ho with rfl | ho
        · exact absurd htoken hoption
        · exact ⟨o, ho, htoken⟩
      obtain ⟨n, hn, hloop⟩ := ih hrest (cnt + 1)
      rw [if_neg hoption, hloop]
      exact ⟨n, by omega, rfl⟩

/-- A line of `missing.txt` is kept when its token is found in no line of the option file. -/
theorem weedLine_eq (g : Glob) (options : List Line) (line : Line) (out : Weeded) :
    weedLine g options line out =
      if ∃ o ∈ options, tokenOf g line <:+: o then
        { out with repeated := out.repeated ++ [g.echo (tokenOf g line)] }
      else { out with reallyMissing := out.reallyMissing ++ [g.echo line] } := by
  unfold weedLine
  by_cases h : ∃ o ∈ options, tokenOf g line <:+: o
  · obtain ⟨n, hn, hloop⟩ := optionLoop_of_exists g h out 0
    rw [Nat.zero_add] at hn
    rw [if_pos h]
    simp only [hloop, if_neg (Nat.ne_of_lt hn)]
  · have hnot : ∀ o ∈ options, ¬ tokenOf g line <:+: o := fun o ho htoken => h ⟨o, ho, htoken⟩
    rw [if_neg h]
    simp only [optionLoop_of_forall_not g hnot, Nat.zero_add, if_true]

/-! ### Names through `echo` -/

/-- A name of an option: letters, digits and underscores. -/
def IsName (name : Line) : Prop := name ≠ [] ∧ ∀ c ∈ name, c.isAlphanum = true ∨ c = '_'

theorem IsName.ne {name : Line} (h : IsName name) {c : Char} (hc : c.isAlphanum = false) (hc' : c ≠ '_') :
    c ∉ name := by
  intro hmem
  rcases h.2 c hmem with halnum | rfl
  · rw [hc] at halnum
    cases halnum
  · exact hc' rfl

theorem IsName.not_isBlank {name : Line} (h : IsName name) : ∀ c ∈ name, isBlank c = false := by
  intro c hc
  have hspace : c ≠ ' ' := fun heq => h.ne (c := ' ') (by decide) (by decide) (heq ▸ hc)
  have htab : c ≠ '\t' := fun heq => h.ne (c := '\t') (by decide) (by decide) (heq ▸ hc)
  simp [isBlank, hspace, htab]

theorem IsName.isLiteral {name : Line} (h : IsName name) : ∀ c ∈ name, isLiteral c = true := by
  intro c hc
  have hstar : c ≠ '*' := fun heq => h.ne (c := '*') (by decide) (by decide) (heq ▸ hc)
  have hmark : c ≠ '?' := fun heq => h.ne (c := '?') (by decide) (by decide) (heq ▸ hc)
  have hbracket : c ≠ '[' := fun heq => h.ne (c := '[') (by decide) (by decide) (heq ▸ hc)
  have hback : c ≠ '\\' := fun heq => h.ne (c := '\\') (by decide) (by decide) (heq ▸ hc)
  simp [KTools.Script.isLiteral, hstar, hmark, hbracket, hback]

theorem splitOnP_append {head : Line} (hhead : ∀ c ∈ head, isBlank c = false) (rest : Line) :
    (head ++ rest).splitOnP isBlank = (rest.splitOnP isBlank).modifyHead (head ++ ·) := by
  induction head with
  | nil => cases h : rest.splitOnP isBlank <;> simp [h]
  | cons c head ih =>
    rw [List.cons_append, List.splitOnP_cons_eq_if_modifyHead, hhead c List.mem_cons_self,
      ih fun d hd => hhead d (List.mem_cons_of_mem _ hd)]
    cases rest.splitOnP isBlank <;> rfl

/-- The characters before the first blank are the start of the first word. -/
theorem splitWords_append {head : Line} (hne : head ≠ []) (hhead : ∀ c ∈ head, isBlank c = false)
    (rest : Line) : ∃ word words, splitWords (head ++ rest) = word :: words ∧ head <+: word := by
  obtain ⟨piece, pieces, hpieces⟩ := List.exists_cons_of_ne_nil (List.splitOnP_ne_nil isBlank rest)
  have hword : head ++ piece ≠ [] := by simp [hne]
  refine ⟨head ++ piece, pieces.filter (· ≠ []), ?_, List.prefix_append _ _⟩
  rw [splitWords, splitOnP_append hhead, hpieces, List.modifyHead_cons, List.filter_cons_of_pos]
  exact decide_eq_true hword

theorem splitWords_singleton {word : Line} (hne : word ≠ []) (hword : ∀ c ∈ word, isBlank c = false) :
    splitWords word = [word] := by
  rw [splitWords, List.splitOnP_eq_singleton hword]
  simp [hne]

theorem prefix_intercalate (sep first : Line) (rest : List Line) :
    first <+: sep.intercalate (first :: rest) := by
  cases rest with
  | nil => simp [List.intercalate]
  | cons next rest => simp [List.intercalate]

section
variable (g : Glob) {name : Line}

/-- The name of an option and the sign after it. -/
def token (name : Line) : Line := name ++ ['=']

theorem token_not_isBlank (hname : IsName name) : ∀ c ∈ token name, isBlank c = false := by
  intro c hc
  rcases List.mem_append.1 hc with hc | hc
  · exact hname.not_isBlank c hc
  · rw [List.mem_singleton.1 hc]
    decide

theorem token_isLiteral (hname : IsName name) : ∀ c ∈ token name, isLiteral c = true := by
  intro c hc
  rcases List.mem_append.1 hc with hc | hc
  · exact hname.isLiteral c hc
  · rw [List.mem_singleton.1 hc]
    decide

theorem expandWord_prefix {head word : Line} (hliteral : ∀ c ∈ head, isLiteral c = true) (h : head <+: word) :
    ∃ first rest, g.expandWord word = first :: rest ∧ head <+: first := by
  unfold Glob.expandWord
  split
  · rename_i hexpand
    obtain ⟨first, rest, hnames⟩ := List.exists_cons_of_ne_nil hexpand.2
    refine ⟨first, rest, hnames, ?_⟩
    have hfirst := g.literal word first (hnames ▸ List.mem_cons_self)
    obtain ⟨tail, rfl⟩ := h
    rw [List.takeWhile_append_of_pos hliteral] at hfirst
    exact (List.prefix_append _ _).trans hfirst
  · exact ⟨word, [], rfl, h⟩

/-- **The name of an option survives `echo`.** -/
theorem echo_name (hname : IsName name) (value : Line) :
    ∃ value', g.echo (name ++ '=' :: value) = name ++ '=' :: value' := by
  obtain ⟨word, words, hwords, hword⟩ :=
    splitWords_append (show token name ≠ [] by simp [token]) (token_not_isBlank hname) value
  obtain ⟨first, rest, hfirst, hprefix⟩ := expandWord_prefix g (token_isLiteral hname) hword
  have hline : name ++ '=' :: value = token name ++ value := by simp [token]
  obtain ⟨tail, htail⟩ := hprefix.trans (prefix_intercalate [' '] first (rest ++ words.flatMap g.expandWord))
  refine ⟨tail, ?_⟩
  rw [Glob.echo, hline, hwords, List.flatMap_cons, hfirst, List.cons_append, ← htail]
  simp [token]

theorem takeWhile_name (hname : IsName name) (value : Line) :
    (name ++ '=' :: value).takeWhile (· ≠ '=') = name := by
  have hsign : ∀ c ∈ name, c ≠ '=' := by
    rintro c hc rfl
    exact hname.ne (by decide) (by decide) hc
  rw [List.takeWhile_append_of_pos (by simpa using hsign)]
  simp

theorem tokenOf_eq (hname : IsName name) (value : Line) :
    tokenOf g (name ++ '=' :: value) = token name := by
  obtain ⟨value', hecho⟩ := echo_name g hname value
  rw [tokenOf, hecho, takeWhile_name hname, token]

theorem echo_token (hname : IsName name) : g.echo (token name) = token name := by
  have hpattern : isPattern (token name) = false := by
    rw [isPattern, List.any_eq_false]
    intro c hc
    have := token_isLiteral hname c hc
    simp only [isLiteral, Bool.not_eq_true', Bool.or_eq_false_iff] at this
    simp [this]
  rw [Glob.echo, splitWords_singleton (by simp [token]) (token_not_isBlank hname), List.flatMap_singleton,
    Glob.expandWord, if_neg (by simp [hpattern])]
  simp [List.intercalate]

end

/-! ### Option lines -/

/-- `NAME=value`. -/
def IsOption (line : Line) : Prop := ∃ name value, IsName name ∧ line = name ++ '=' :: value

def nameOf (line : Line) : Line := line.takeWhile (· ≠ '=')

theorem IsOption.echo {line : Line} (h : IsOption line) (g : Glob) :
    IsOption (g.echo line) ∧ nameOf (g.echo line) = nameOf line := by
  obtain ⟨name, value, hname, rfl⟩ := h
  obtain ⟨value', hecho⟩ := echo_name g hname value
  rw [hecho]
  exact ⟨⟨name, value', hname, rfl⟩, (takeWhile_name hname value').trans (takeWhile_name hname value).symm⟩

theorem IsOption.tokenOf {line : Line} (h : IsOption line) (g : Glob) :
    KTools.Script.tokenOf g line = token (nameOf line) ∧ g.echo (token (nameOf line)) = token (nameOf line) := by
  obtain ⟨name, value, hname, rfl⟩ := h
  have hnameOf : nameOf (name ++ '=' :: value) = name := takeWhile_name hname value
  rw [hnameOf]
  exact ⟨tokenOf_eq g hname value, echo_token g hname⟩

/-- The script finds the name of the line somewhere in the option file. -/
def Found (options : List Line) (line : Line) : Prop := ∃ o ∈ options, token (nameOf line) <:+: o

instance (options : List Line) (line : Line) : Decidable (Found options line) :=
  inferInstanceAs (Decidable (∃ o ∈ options, _))

/-- **What `weed_out_configured.sh` does with option lines.** -/
theorem weedLoop_eq (g : Nat → Glob) (options lines : List Line) :
    ∀ i out, (∀ l ∈ lines, IsOption l) →
      weedLoop g options i lines out =
        { reallyMissing := out.reallyMissing ++
            ((lines.zipIdx i).filter fun p => ¬ Found options p.1).map fun p => (g p.2).echo p.1
          repeated := out.repeated ++ (lines.filter fun l => Found options l).map fun l => token (nameOf l) } := by
  induction lines with
  | nil => intro i out _; simp [weedLoop]
  | cons line rest ih =>
    intro i out hoption
    obtain ⟨htoken, hecho⟩ := (hoption line List.mem_cons_self).tokenOf (g i)
    rw [weedLoop, ih _ _ fun l hl => hoption l (List.mem_cons_of_mem _ hl), weedLine_eq, htoken, hecho,
      List.zipIdx_cons]
    by_cases hfound : Found options line
    · have hexists : ∃ o ∈ options, token (nameOf line) <:+: o := hfound
      rw [if_pos hexists]
      simp [hfound]
    · have hnot : ¬ ∃ o ∈ options, token (nameOf line) <:+: o := hfound
      rw [if_neg hnot]
      simp [hfound]

/-! ### A comparison -/

/-- A kernel configuration: a line with an equals sign sets an option. -/
structure ConfigFile where
  lines : List Line
  oneLine : ∀ l ∈ lines, '\n' ∉ l
  option : ∀ l ∈ lines, '=' ∈ l → IsOption l

/-- The two configurations and the option file, which may end in a line without a line break, with the locale
and the directories in which the scripts run. -/
structure Comparison where
  base : ConfigFile
  compare : ConfigFile
  options : List Line
  optionsTail : Line
  collate : Line → Line → Bool
  compareGlob : Glob
  weedGlob : Nat → Glob

namespace Comparison
variable (x : Comparison)

def output : List Line := kernelConfigCompare x.compareGlob x.collate x.base.lines x.compare.lines

def weeded : Weeded := weedOutConfigured x.weedGlob x.options x.output

/-- The lines with an equals sign that only one of the two files has, in the order of `sort`. -/
def added : List Line := (grepSort x.collate x.base.lines).filter fun l => l ∉ x.compare.lines
def missing : List Line := (grepSort x.collate x.compare.lines).filter fun l => l ∉ x.base.lines

/-- The option of the line is set in the option file. -/
def Sets (line : Line) : Prop := ∃ o ∈ x.options ++ [x.optionsTail], token (nameOf line) <+: o

instance (line : Line) : Decidable (x.Sets line) := inferInstanceAs (Decidable (∃ o ∈ _, _))

/-- `really_missing.txt` has the missing lines whose option is not set, as they are, and `repeated.txt` the
names of the others. -/
structure Exact : Prop where
  reallyMissing : x.weeded.reallyMissing = x.missing.filter fun l => ¬ x.Sets l
  repeated : x.weeded.repeated = (x.missing.filter fun l => x.Sets l).map fun l => token (nameOf l)

/-- No added line looks like a missing one, the name of a missing line is in the option file only where it is
set, and a missing line that is not set there survives the two `echo` commands. -/
structure Clean : Prop where
  added : ∀ l ∈ x.added, ¬ dashBlank <:+: x.compareGlob.echo l
  found : ∀ l ∈ x.missing, Found x.options l ↔ x.Sets l
  echoed : ∀ i l, x.missing[i]? = some l → ¬ x.Sets l → (x.weedGlob i).echo (x.compareGlob.echo l) = l

theorem mem_grepSort {collate : Line → Line → Bool} {lines : List Line} {l : Line} :
    l ∈ grepSort collate lines ↔ l ∈ lines ∧ '=' ∈ l := by
  rw [grepSort, List.mem_mergeSort, List.mem_filter, decide_eq_true_eq]

theorem notIn_grepSort (collate : Line → Line → Bool) (lines others : List Line) :
    notIn (grepSort collate others) (grepSort collate lines) =
      (grepSort collate lines).filter fun l => l ∉ others := by
  refine List.filter_congr fun l hl => decide_eq_decide.2 (not_congr ?_)
  rw [mem_grepSort, and_iff_left (mem_grepSort.1 hl).2]

theorem isOption_missing : ∀ l ∈ x.missing, IsOption l := by
  intro l hl
  obtain ⟨hmem, hsign⟩ := mem_grepSort.1 (List.mem_filter.1 hl).1
  exact x.compare.option l hmem hsign

theorem isOption_added : ∀ l ∈ x.added, IsOption l := by
  intro l hl
  obtain ⟨hmem, hsign⟩ := mem_grepSort.1 (List.mem_filter.1 hl).1
  exact x.base.option l hmem hsign

/-- The added lines that look like missing ones. -/
def mistaken : List Line := x.added.filter fun l => dashBlank <:+: x.compareGlob.echo l

theorem dashBlank_infix_plus (l : Line) : dashBlank <:+: '+' :: ' ' :: l ↔ dashBlank <:+: l := by
  simp [dashBlank, List.infix_cons_iff]

/-- **The lines that reach `missing.txt`**: the missing ones, after added ones that look like them. -/
theorem missingTxt_output :
    missingTxt x.output = (x.mistaken ++ x.missing).map x.compareGlob.echo := by
  have hadded : ¬ dashBlank <:+: addedHead := by decide
  have hmissing : ¬ dashBlank <:+: missingHead := by decide
  have hdash : ∀ l : Line, dashBlank <:+: '-' :: ' ' :: l := fun l => (List.prefix_append dashBlank l).isInfix
  unfold missingTxt output kernelConfigCompare
  simp only [printMissing_eq, notIn_grepSort, List.cons_append, List.filter_cons, hadded, hmissing, decide_false,
    Bool.false_eq_true, if_false, List.filter_append, List.filter_map, List.map_append, List.map_map]
  congr 1
  · unfold mistaken added
    have hfilter : ∀ l : Line, decide (dashBlank <:+: '+' :: ' ' :: x.compareGlob.echo l) =
        decide (dashBlank <:+: x.compareGlob.echo l) :=
      fun l => decide_eq_decide.2 (dashBlank_infix_plus _)
    simp only [Function.comp_def, hfilter]
    rfl
  · unfold missing
    simp only [Function.comp_def, hdash, decide_true, List.filter_true]
    rfl

/-- The two files, for the lines that reach `missing.txt`. -/
theorem weeded_eq :
    x.weeded =
      { reallyMissing := ((x.mistaken ++ x.missing).zipIdx.filter fun p => ¬ Found x.options p.1).map fun p =>
          (x.weedGlob p.2).echo (x.compareGlob.echo p.1)
        repeated := ((x.mistaken ++ x.missing).filter fun l => Found x.options l).map fun l =>
          token (nameOf l) } := by
  have hoption : ∀ l ∈ x.mistaken ++ x.missing, IsOption l := by
    intro l hl
    rcases List.mem_append.1 hl with hl | hl
    · exact x.isOption_added l (List.mem_filter.1 hl).1
    · exact x.isOption_missing l hl
  have hecho : ∀ l ∈ (x.mistaken ++ x.missing).map x.compareGlob.echo, IsOption l := by
    intro l hl
    obtain ⟨line, hline, rfl⟩ := List.mem_map.1 hl
    exact ((hoption line hline).echo _).1
  have hname : ∀ l ∈ x.mistaken ++ x.missing, nameOf (x.compareGlob.echo l) = nameOf l :=
    fun l hl => ((hoption l hl).echo _).2
  have hfound : ∀ l ∈ x.mistaken ++ x.missing,
      (Found x.options (x.compareGlob.echo l) ↔ Found x.options l) := by
    intro l hl
    unfold Found
    rw [hname l hl]
  rw [weeded, weedOutConfigured, missingTxt_output, weedLoop_eq _ _ _ _ _ hecho]
  simp only [List.nil_append, List.zipIdx_map, List.filter_map, List.map_map]
  congr 1
  · have hfilter : (x.mistaken ++ x.missing).zipIdx.filter
          ((fun p => decide ¬ Found x.options p.1) ∘ Prod.map x.compareGlob.echo id) =
        (x.mistaken ++ x.missing).zipIdx.filter fun p => ¬ Found x.options p.1 := by
      refine List.filter_congr fun p hp => ?_
      simp only [Function.comp_apply, Prod.map_fst, hfound p.1 (List.fst_mem_of_mem_zipIdx hp)]
    rw [hfilter]
    rfl
  · have hfilter : (x.mistaken ++ x.missing).filter
          ((fun l => decide (Found x.options l)) ∘ x.compareGlob.echo) =
        (x.mistaken ++ x.missing).filter fun l => Found x.options l := by
      refine List.filter_congr fun l hl => ?_
      simp only [Function.comp_apply, hfound l hl]
    rw [hfilter]
    refine List.map_congr_left fun l hl => ?_
    rw [Function.comp_apply, hname l (List.mem_filter.1 hl).1]

/-- A predicate that goes by the token of a line. -/
def ByToken (p : Line → Prop) : Prop := ∀ l l', token (nameOf l) = token (nameOf l') → (p l ↔ p l')

theorem byToken_found (options : List Line) : ByToken (Found options) := by
  intro l l' h
  unfold Found
  rw [h]

theorem byToken_sets : ByToken x.Sets := by
  intro l l' h
  unfold Sets
  rw [h]

/-- Two such predicates that pick lines with the same tokens agree on all the lines. -/
theorem ByToken.iff_of_filter {p q : Line → Prop} [DecidablePred p] [DecidablePred q] (hp : ByToken p)
    (hq : ByToken q) {lines : List Line}
    (h : (lines.filter fun l => p l).map (fun l => token (nameOf l)) =
      (lines.filter fun l => q l).map fun l => token (nameOf l)) : ∀ l ∈ lines, p l ↔ q l := by
  have himp : ∀ {p q : Line → Prop} [DecidablePred p] [DecidablePred q], ByToken q →
      (lines.filter fun l => p l).map (fun l => token (nameOf l)) =
        (lines.filter fun l => q l).map (fun l => token (nameOf l)) → ∀ l ∈ lines, p l → q l := by
    intro p q _ _ hq h l hl hpl
    have hmem : token (nameOf l) ∈ (lines.filter fun l => p l).map fun l => token (nameOf l) :=
      List.mem_map_of_mem (List.mem_filter.2 ⟨hl, decide_eq_true hpl⟩)
    rw [h] at hmem
    obtain ⟨l', hl', htoken⟩ := List.mem_map.1 hmem
    exact (hq l' l htoken).1 (of_decide_eq_true (List.mem_filter.1 hl').2)
  exact fun l hl => ⟨himp hq h l hl, himp hp h.symm l hl⟩

theorem length_filter_add (p : Line → Prop) [DecidablePred p] (lines : List Line) :
    (lines.filter fun l => ¬ p l).length + (lines.filter fun l => p l).length = lines.length := by
  induction lines with
  | nil => rfl
  | cons l lines ih =>
    by_cases h : p l
    · simp only [List.filter_cons, h, not_true_eq_false, decide_true, decide_false, if_true, List.length_cons,
        Bool.false_eq_true, if_false]
      omega
    · simp only [List.filter_cons, h, not_false_eq_true, decide_true, decide_false, if_true, List.length_cons,
        Bool.false_eq_true, if_false]
      omega

/-- Each line of `missing.txt` goes into one of the two files. -/
theorem length_weeded :
    x.weeded.reallyMissing.length + x.weeded.repeated.length = x.mistaken.length + x.missing.length := by
  have hzip : ((x.mistaken ++ x.missing).zipIdx.filter fun p => ¬ Found x.options p.1).length =
      ((x.mistaken ++ x.missing).filter fun l => ¬ Found x.options l).length := by
    conv_rhs => rw [← List.zipIdx_map_fst 0 (x.mistaken ++ x.missing), List.filter_map, List.length_map]
    rfl
  rw [weeded_eq, List.length_map, List.length_map, hzip, length_filter_add, List.length_append]

/-- The lines to keep, with their positions in `missing.txt`. -/
def kept : List (Line × Nat) := x.missing.zipIdx.filter fun p => ¬ Found x.options p.1

theorem map_fst_kept (hfound : ∀ l ∈ x.missing, Found x.options l ↔ x.Sets l) :
    x.kept.map Prod.fst = x.missing.filter fun l => ¬ x.Sets l := by
  have hfilter : x.kept = x.missing.zipIdx.filter fun p => ¬ x.Sets p.1 := by
    refine List.filter_congr fun p hp => ?_
    simp only [hfound p.1 (List.fst_mem_of_mem_zipIdx hp)]
  conv_rhs => rw [← List.zipIdx_map_fst 0 x.missing, List.filter_map]
  rw [hfilter]
  rfl

/-- **The two files are right exactly when the comparison is clean.** -/
theorem exact_iff : x.Exact ↔ x.Clean := by
  constructor
  · rintro ⟨hmissing, hrepeated⟩
    -- as many lines as there are missing ones: no added line has come through
    have hmistaken : x.mistaken = [] := by
      have hlength := x.length_weeded
      rw [hmissing, hrepeated, List.length_map, length_filter_add] at hlength
      exact List.eq_nil_of_length_eq_zero (by omega)
    rw [weeded_eq, hmistaken, List.nil_append] at hmissing hrepeated
    have hfound := (byToken_found x.options).iff_of_filter x.byToken_sets hrepeated
    refine ⟨fun l hl hdash => ?_, hfound, fun i l hl hset => ?_⟩
    · have hmem : l ∈ x.mistaken := List.mem_filter.2 ⟨hl, decide_eq_true hdash⟩
      rw [hmistaken] at hmem
      exact List.not_mem_nil hmem
    · rw [← x.map_fst_kept hfound] at hmissing
      refine List.map_inj_left.1 hmissing (l, i) (List.mem_filter.2 ⟨?_, ?_⟩)
      · exact List.mk_mem_zipIdx_iff_getElem?.2 hl
      · exact decide_eq_true fun h => hset ((hfound l (List.mem_of_getElem? hl)).1 h)
  · rintro ⟨hadded, hfound, hechoed⟩
    have hmistaken : x.mistaken = [] := by
      refine List.filter_eq_nil_iff.2 fun l hl => ?_
      simpa using hadded l hl
    constructor
    · rw [weeded_eq, hmistaken, List.nil_append, ← x.map_fst_kept hfound]
      refine List.map_congr_left fun p hp => ?_
      obtain ⟨hmem, hnot⟩ := List.mem_filter.1 hp
      refine hechoed p.2 p.1 (List.mem_zipIdx_iff_getElem?.1 hmem) fun hset => ?_
      exact of_decide_eq_true hnot ((hfound p.1 (List.fst_mem_of_mem_zipIdx hmem)).2 hset)
    · rw [weeded_eq, hmistaken, List.nil_append]
      exact congrArg (List.map _) (List.filter_congr fun l hl => decide_eq_decide.2 (hfound l hl))

/-- A directory without a file whose name a pattern matches. -/
def noNames : Glob := ⟨fun _ => [], fun _ _ h => absurd h List.not_mem_nil, fun _ _ h => absurd h List.not_mem_nil⟩

/-- The only line of the comparison configuration is `A="x  y"`, with two blanks; all else is empty. -/
def twoBlanks : Comparison where
  base := ⟨[], List.forall_mem_nil _, List.forall_mem_nil _⟩
  compare :=
    { lines := [['A', '=', '"', 'x', ' ', ' ', 'y', '"']]
      oneLine := by decide
      option := fun l hl _ =>
        ⟨['A'], ['"', 'x', ' ', ' ', 'y', '"'], ⟨List.cons_ne_nil _ _, List.forall_mem_singleton.2 (.inl rfl)⟩,
          List.mem_singleton.1 hl⟩ }
  options := []
  optionsTail := []
  collate := fun _ _ => true
  compareGlob := noNames
  weedGlob := fun _ => noNames

/-- It comes out as `A="x y"`. -/
theorem twoBlanks_not_exact : ¬ ∀ x : Comparison, x.Exact := by
  intro h
  have hmissing := (h twoBlanks).reallyMissing
  revert hmissing
  decide +kernel

end Comparison

end KTools.Script
