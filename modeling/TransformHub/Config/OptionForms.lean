import TransformHub.Config.CommandModel

/-!
# The two forms of an option

The value of an option may follow it after `=` or as the next token.
-/

namespace TransformHub.Config

open Js (JsValue)

variable {js : Conversions} {command : CommandDescriptor} {allOptions : List OptionDescriptor}

/-- The tokens are read one by one, and a token that is the value of an option is dropped. -/
def scan (js : Conversions) (command : CommandDescriptor) (allOptions : List OptionDescriptor) :
    Scan → List Text → Except CommandError Scan
  | s, [] => .ok s
  | s, token :: rest => do
      let (s, taken) ← readToken js command allOptions s token rest.head?
      if taken then scan js command allOptions s rest.tail
      else scan js command allOptions s rest
termination_by _ tokens => tokens.length
decreasing_by
  · simp only [List.length_tail, List.length_cons]
    omega
  · exact Nat.lt_succ_self _

/-! ## Splitting a token -/

theorem splitToken_plain {name : Text} (h : '=' ∉ name) : splitToken name = (name, none) := by
  rw [splitToken, List.splitOn_eq_singleton h]

theorem splitToken_inline {name value : Text} (hname : '=' ∉ name) (hvalue : '=' ∉ value) :
    splitToken (name ++ '=' :: value) = (name, some value) := by
  rw [splitToken, List.splitOn_append_cons_self_of_not_mem hname,
    List.splitOn_eq_singleton hvalue]

/-! ## What one token does -/

/-- The token is an option whose value is the next token. -/
def takesNext (allOptions : List OptionDescriptor) (token : Text) : Bool :=
  match splitToken token with
  | (optionName, none) =>
    (findOption allOptions optionName).any fun o => decide (o.type ≠ some .boolean)
  | (_, some _) => false

variable {o : OptionDescriptor} {s s' : Scan}

theorem endOfOptions_assign {coerced : JsValue} (h : assign js s o coerced = .ok s') :
    s'.endOfOptions = s.endOfOptions := by
  unfold assign at h
  split at h
  · split at h
    · cases h
      rfl
    · cases h
  · cases h
    rfl

theorem endOfOptions_storeValue {rawValue : Text} (h : storeValue js s o rawValue = .ok s') :
    s'.endOfOptions = s.endOfOptions := by
  unfold storeValue at h
  cases hcoerced : coerceOptionValue js rawValue o with
  | error e =>
    rw [hcoerced] at h
    cases h
  | ok coerced =>
    rw [hcoerced] at h
    exact endOfOptions_assign h

theorem endOfOptions_markSeen (h : markSeen s o = .ok s') : s'.endOfOptions = s.endOfOptions := by
  unfold markSeen at h
  split at h
  · cases h
    rfl
  · split at h
    · cases h
    · cases h
      rfl

theorem readValue_ok {inlineValue next : Option Text} {taken : Bool}
    (h : readValue js s o inlineValue next = .ok (s', taken)) :
    s'.endOfOptions = s.endOfOptions ∧ taken = inlineValue.isNone := by
  have hstored : ∀ {rawValue : Text} {b : Bool},
      (do return (← storeValue js s o rawValue, b) : Except CommandError (Scan × Bool)) =
        .ok (s', taken) → s'.endOfOptions = s.endOfOptions ∧ taken = b := by
    intro rawValue b h
    cases hstore : storeValue js s o rawValue with
    | error e =>
      rw [hstore] at h
      cases h
    | ok s₁ =>
      rw [hstore] at h
      cases h
      exact ⟨endOfOptions_storeValue hstore, rfl⟩
  unfold readValue at h
  split at h
  · exact hstored h
  · cases h
  · split at h
    · cases h
    · exact hstored h

theorem readOption_ok {optionName : Text} {inlineValue next : Option Text} {taken : Bool}
    (h : readOption js s o optionName inlineValue next = .ok (s', taken)) :
    s'.endOfOptions = s.endOfOptions ∧
      taken = (inlineValue.isNone && decide (o.type ≠ some .boolean)) := by
  unfold readOption at h
  cases hseen : markSeen s o with
  | error e =>
    rw [hseen] at h
    cases h
  | ok s₁ =>
    rw [hseen] at h
    have hmarked : s₁.endOfOptions = s.endOfOptions := endOfOptions_markSeen hseen
    simp only [bind, Except.bind, pure, Except.pure] at h
    split at h
    · rename_i hnegated
      cases h
      exact ⟨hmarked, by simp [hnegated.2]⟩
    · split at h
      · rename_i hflag
        cases h
        exact ⟨hmarked, by simp [hflag]⟩
      · rename_i hvalue
        obtain ⟨hended, htaken⟩ := readValue_ok h
        exact ⟨hended.trans hmarked, by simp [htaken, hvalue]⟩

/-- Before the end of the options a token other than `--` leaves them open, and it takes the next
token exactly when it is an option that needs a value and has none. -/
theorem readToken_ok {s s' : Scan} {token : Text} {next : Option Text} {taken : Bool}
    (hs : s.endOfOptions = false) (htoken : token ≠ "--".toList)
    (h : readToken js command allOptions s token next = .ok (s', taken)) :
    s'.endOfOptions = false ∧ taken = takesNext allOptions token := by
  unfold readToken at h
  rw [if_neg (Bool.eq_false_iff.mp hs), if_neg htoken] at h
  unfold takesNext
  rcases hsplit : splitToken token with ⟨optionName, inlineValue⟩
  rw [hsplit] at h
  simp only at h ⊢
  cases hfind : findOption allOptions optionName with
  | none =>
    rw [hfind] at h
    simp only at h
    split at h
    · cases h
      refine ⟨hs, ?_⟩
      cases inlineValue <;> simp [hfind]
    · cases h
  | some o =>
    rw [hfind] at h
    obtain ⟨hended, htaken⟩ := readOption_ok h
    refine ⟨hended.trans hs, htaken.trans ?_⟩
    cases inlineValue <;> simp [hfind]

theorem readToken_next {s : Scan} {token : Text} (h : takesNext allOptions token = false)
    (next : Option Text) :
    readToken js command allOptions s token next =
      readToken js command allOptions s token none := by
  have hread : ∀ {o : OptionDescriptor}, o.type = some .boolean → ∀ {optionName : Text},
      readOption js s o optionName none next = readOption js s o optionName none none := by
    intro o hflag optionName
    unfold readOption
    simp only [if_pos hflag]
  unfold readToken
  unfold takesNext at h
  rcases hsplit : splitToken token with ⟨optionName, inlineValue⟩
  rw [hsplit] at h
  simp only at h ⊢
  cases hfind : findOption allOptions optionName with
  | none => rfl
  | some o =>
    cases inlineValue with
    | some value => rfl
    | none =>
      have hflag : o.type = some .boolean := by simpa [hfind] using h
      simp only [hread hflag]

/-! ## The scan -/

theorem scan_cons (s : Scan) (token : Text) (rest : List Text) :
    scan js command allOptions s (token :: rest) =
      (readToken js command allOptions s token rest.head?).bind fun read =>
        if read.2 then scan js command allOptions read.1 rest.tail
        else scan js command allOptions read.1 rest := by
  rw [scan]
  rfl

theorem visit_of_notMem {remainder rest : List Text} {s : Scan} {indexes : List ℕ} {token : Text}
    {i : ℕ} (hdrop : remainder.drop i = token :: rest) (hi : i ∉ indexes) :
    visit js command allOptions remainder (s, indexes) (token, i) =
      (readToken js command allOptions s token rest.head?).bind fun read =>
        .ok (read.1, if read.2 then (i + 1) :: indexes else indexes) := by
  have hnext : remainder[i + 1]? = rest.head? := by
    have hrest : remainder.drop (i + 1) = rest := by rw [← List.tail_drop, hdrop, List.tail_cons]
    rw [← hrest, List.head?_drop]
  unfold visit
  simp only [if_neg hi, hnext]
  rfl

theorem foldlM_visit {remainder : List Text} (n : ℕ) : ∀ {tokens : List Text} {i : ℕ} {s : Scan}
    {indexes : List ℕ}, tokens.length ≤ n → remainder.drop i = tokens → (∀ j ∈ indexes, j < i) →
    ((tokens.zipIdx i).foldlM (visit js command allOptions remainder) (s, indexes)).map Prod.fst =
      scan js command allOptions s tokens := by
  induction n with
  | zero =>
    intro tokens i s indexes hlength _ _
    obtain rfl := List.length_eq_zero_iff.mp (Nat.le_zero.mp hlength)
    rw [scan]
    rfl
  | succ n ih =>
    intro tokens i s indexes hlength hdrop hindexes
    cases tokens with
    | nil =>
      rw [scan]
      rfl
    | cons token rest =>
      have hi : i ∉ indexes := fun hmem => Nat.lt_irrefl i (hindexes i hmem)
      have hrest : remainder.drop (i + 1) = rest := by
        rw [← List.tail_drop, hdrop, List.tail_cons]
      have hshort : rest.length ≤ n := Nat.le_of_succ_le_succ hlength
      rw [List.zipIdx_cons, List.foldlM_cons, visit_of_notMem hdrop hi, scan_cons]
      cases readToken js command allOptions s token rest.head? with
      | error e => rfl
      | ok read =>
        obtain ⟨s₁, taken⟩ := read
        cases taken with
        | false => exact ih hshort hrest fun j hj => Nat.lt_succ_of_lt (hindexes j hj)
        | true =>
          -- the next visit finds its index in the set and does nothing
          cases rest with
          | nil =>
            show _ = scan js command allOptions s₁ []
            rw [scan]
            rfl
          | cons value rest =>
            have hskip : visit js command allOptions remainder (s₁, (i + 1) :: indexes)
                (value, i + 1) = .ok (s₁, (i + 1) :: indexes) := by
              simp [visit]
            have hrest' : remainder.drop (i + 1 + 1) = rest := by
              rw [← List.tail_drop, hrest, List.tail_cons]
            show ((((value :: rest).zipIdx (i + 1)).foldlM
              (visit js command allOptions remainder) (s₁, (i + 1) :: indexes)).map
                Prod.fst) = scan js command allOptions s₁ rest
            rw [List.zipIdx_cons, List.foldlM_cons, hskip]
            apply ih (Nat.le_of_succ_le hshort) hrest'
            intro j hj
            rcases List.mem_cons.mp hj with rfl | hj
            · exact Nat.lt_succ_self _
            · have := hindexes j hj
              omega

theorem parseCommandContext_eq {globalOptions : List OptionDescriptor} {remainder : List Text} :
    parseCommandContext js command globalOptions remainder =
      (scan js command (globalOptions ++ command.options)
        (.start (globalOptions ++ command.options)) remainder).bind
          (finish command (globalOptions ++ command.options) remainder) := by
  have hvisits : (remainder.zipIdx.foldlM
      (visit js command (globalOptions ++ command.options) remainder)
      (Scan.start (globalOptions ++ command.options), [])).map Prod.fst =
        scan js command (globalOptions ++ command.options)
          (.start (globalOptions ++ command.options)) remainder :=
    foldlM_visit remainder.length (Nat.le_refl _) List.drop_zero
      fun j hj => (List.not_mem_nil hj).elim
  rw [← hvisits]
  unfold parseCommandContext
  simp only [bind]
  cases remainder.zipIdx.foldlM (visit js command (globalOptions ++ command.options) remainder)
    (Scan.start (globalOptions ++ command.options), []) with
  | error e => rfl
  | ok state => rfl

/-! ## What the scan looks for -/

/-- What the scan expects after some tokens: an option, the value of the last option, or positional
tokens only. -/
inductive Position where
  | option
  | value
  | positional
deriving DecidableEq

def position (allOptions : List OptionDescriptor) : List Text → Position
  | [] => .option
  | token :: rest =>
    if token = "--".toList then .positional
    else if takesNext allOptions token then
      match rest with
      | [] => .value
      | _ :: rest => position allOptions rest
    else position allOptions rest

theorem scan_append_aux (n : ℕ) : ∀ {tokens : List Text} {s : Scan}, tokens.length ≤ n →
    s.endOfOptions = false → position allOptions tokens = .option →
    (∀ s', scan js command allOptions s tokens = .ok s' → s'.endOfOptions = false) ∧
      ∀ tail, scan js command allOptions s (tokens ++ tail) =
        (scan js command allOptions s tokens).bind fun s' =>
          scan js command allOptions s' tail := by
  have hnil : ∀ {s : Scan}, s.endOfOptions = false →
      (∀ s', scan js command allOptions s [] = .ok s' → s'.endOfOptions = false) ∧
        ∀ tail, scan js command allOptions s ([] ++ tail) =
          (scan js command allOptions s []).bind fun s' =>
            scan js command allOptions s' tail := by
    intro s hs
    rw [scan]
    refine ⟨fun s' h => ?_, fun tail => rfl⟩
    cases h
    exact hs
  induction n with
  | zero =>
    intro tokens s hlength hs _
    obtain rfl := List.length_eq_zero_iff.mp (Nat.le_zero.mp hlength)
    exact hnil hs
  | succ n ih =>
    intro tokens s hlength hs hposition
    cases tokens with
    | nil => exact hnil hs
    | cons token rest =>
      unfold position at hposition
      split_ifs at hposition with htoken htakes
      · -- the value of the option is among the tokens
        cases rest with
        | nil => cases hposition
        | cons value rest =>
          have hshort : rest.length ≤ n := Nat.le_of_succ_le (Nat.le_of_succ_le_succ hlength)
          simp only [List.cons_append, scan_cons, List.head?_cons, List.tail_cons]
          cases hread : readToken js command allOptions s token (some value) with
          | error e =>
            refine ⟨fun s' h => ?_, fun tail => rfl⟩
            cases h
          | ok read =>
            obtain ⟨s₁, taken⟩ := read
            obtain ⟨hopen, rfl⟩ := readToken_ok hs htoken hread
            simp only [Except.bind, htakes, if_true]
            exact ih hshort hopen hposition
      · have hfree : takesNext allOptions token = false := Bool.eq_false_iff.mpr htakes
        have hshort : rest.length ≤ n := Nat.le_of_succ_le_succ hlength
        simp only [List.cons_append, scan_cons, readToken_next hfree]
        cases hread : readToken js command allOptions s token none with
        | error e =>
          refine ⟨fun s' h => ?_, fun tail => rfl⟩
          cases h
        | ok read =>
          obtain ⟨s₁, taken⟩ := read
          obtain ⟨hopen, rfl⟩ := readToken_ok hs htoken hread
          simp only [Except.bind, hfree, Bool.false_eq_true, if_false]
          exact ih hshort hopen hposition

theorem scan_append {pre : List Text} {s : Scan} (hs : s.endOfOptions = false)
    (hposition : position allOptions pre = .option) (tail : List Text) :
    scan js command allOptions s (pre ++ tail) =
      (scan js command allOptions s pre).bind fun s' => scan js command allOptions s' tail :=
  (scan_append_aux pre.length (Nat.le_refl _) hs hposition).2 tail

theorem endOfOptions_scan {pre : List Text} (hs : s.endOfOptions = false)
    (hposition : position allOptions pre = .option) (h : scan js command allOptions s pre = .ok s') :
    s'.endOfOptions = false :=
  (scan_append_aux pre.length (Nat.le_refl _) hs hposition).1 s' h

/-! ## The two forms -/

/-- Option `o` is given with the whole of `value`. -/
def give (js : Conversions) (s : Scan) (o : OptionDescriptor) (value : Text) :
    Except CommandError Scan :=
  (markSeen s o).bind fun s => storeValue js s o value

/-- The value is one that the scan does not take for another option. -/
def Accepted (o : OptionDescriptor) (value : Text) : Prop :=
  startsWith ['-'] value = true → o.type = some .number

instance (o : OptionDescriptor) (value : Text) : Decidable (Accepted o value) :=
  inferInstanceAs (Decidable (_ → _))

def CommandContext.values (c : CommandContext) : OrderedMap Text JsValue × List JsValue :=
  (c.options, c.args)

section Forms

variable {s : Scan} {o : OptionDescriptor} {name value : Text} {pre post : List Text}

section

variable (hs : s.endOfOptions = false) (hfind : findOption allOptions name = some o)
  (htype : o.type ≠ some .boolean) (hname : '=' ∉ name)
include hs hfind htype hname

theorem scan_inline (hvalue : '=' ∉ value) :
    scan js command allOptions s ((name ++ '=' :: value) :: post) =
      (give js s o value).bind fun s => scan js command allOptions s post := by
  have htoken : name ++ '=' :: value ≠ "--".toList := by
    intro heq
    have hmem : '=' ∈ "--".toList := by
      rw [← heq]
      simp
    revert hmem
    decide
  have hread : ∀ next, readToken js command allOptions s (name ++ '=' :: value) next =
      (give js s o value).bind fun s => .ok (s, false) := by
    intro next
    unfold readToken
    rw [if_neg (Bool.eq_false_iff.mp hs), if_neg htoken, splitToken_inline hname hvalue]
    simp only [hfind, readOption, if_neg htype, if_neg fun h => htype (And.right h), readValue]
    unfold give
    cases markSeen s o with
    | error e | ok s₁ => rfl
  rw [scan_cons, hread]
  cases give js s o value with
  | error e | ok s₁ => rfl

theorem scan_separate (hend : name ≠ "--".toList) :
    scan js command allOptions s (name :: value :: post) =
      if Accepted o value then
        (give js s o value).bind fun s => scan js command allOptions s post
      else (markSeen s o).bind fun _ => missingValue o := by
  have hread : readToken js command allOptions s name (some value) =
      if Accepted o value then (give js s o value).bind fun s => .ok (s, true)
      else (markSeen s o).bind fun _ => missingValue o := by
    unfold readToken
    rw [if_neg (Bool.eq_false_iff.mp hs), if_neg hend, splitToken_plain hname]
    simp only [hfind, readOption, if_neg htype, if_neg fun h => htype (And.right h), readValue]
    by_cases haccepted : Accepted o value
    · have hread : ¬ (startsWith ['-'] value = true ∧ o.type ≠ some .number) :=
        fun h => h.2 (haccepted h.1)
      simp only [if_pos haccepted, if_neg hread]
      unfold give
      cases markSeen s o with
      | error e | ok s₁ => rfl
    · have hdash : startsWith ['-'] value = true ∧ o.type ≠ some .number :=
        Classical.not_imp.mp haccepted
      simp only [if_neg haccepted, if_pos hdash]
      rfl
  rw [scan_cons, List.head?_cons, hread]
  by_cases haccepted : Accepted o value
  · rw [if_pos haccepted, if_pos haccepted]
    cases give js s o value with
    | error e | ok s₁ => rfl
  · rw [if_neg haccepted, if_neg haccepted]
    cases markSeen s o with
    | error e | ok s₁ => rfl

end

theorem values_finish {s : Scan} {remainder remainder' : List Text} :
    (finish command allOptions remainder s).map CommandContext.values =
      (finish command allOptions remainder' s).map CommandContext.values := by
  unfold finish
  simp only [bind, Except.bind, pure, Except.pure]
  cases readArguments command s.positionalTokens command.arguments 0 0 with
  | error e => rfl
  | ok read =>
    simp only
    split
    · rfl
    · cases checkRequired command allOptions s.options with
      | error e | ok _ => rfl

theorem values_parse {globalOptions : List OptionDescriptor}
    (hposition : position (globalOptions ++ command.options) pre = .option)
    (tail remainder : List Text) :
    let all := globalOptions ++ command.options
    (parseCommandContext js command globalOptions (pre ++ tail)).map CommandContext.values =
      (scan js command all (.start all) pre).bind fun s =>
        (scan js command all s tail).bind fun s =>
          (finish command all remainder s).map CommandContext.values := by
  intro all
  rw [parseCommandContext_eq, scan_append rfl hposition]
  cases scan js command all (.start all) pre with
  | error e => rfl
  | ok s =>
    simp only [Except.bind]
    cases scan js command all s tail with
    | error e => rfl
    | ok s' => exact values_finish

theorem bind_scan_congr {α : Type} {f g : Scan → Except CommandError α}
    (hposition : position allOptions pre = .option)
    (h : ∀ s, s.endOfOptions = false → f s = g s) :
    (scan js command allOptions (.start allOptions) pre).bind f =
      (scan js command allOptions (.start allOptions) pre).bind g := by
  cases hscan : scan js command allOptions (.start allOptions) pre with
  | error e => rfl
  | ok s => exact h s (endOfOptions_scan rfl hposition hscan)

/-- Where an option is expected, a value without `=` is given to its option as a whole after `=`. As
the next token it is too, unless it starts with a dash and the option is no number. -/
theorem option_forms {globalOptions : List OptionDescriptor}
    (hfind : findOption (globalOptions ++ command.options) name = some o)
    (htype : o.type ≠ some .boolean) (hname : '=' ∉ name) (hend : name ≠ "--".toList)
    (hposition : position (globalOptions ++ command.options) pre = .option)
    (hvalue : '=' ∉ value) :
    let all := globalOptions ++ command.options
    let parse := fun tokens => (parseCommandContext js command globalOptions tokens).map
      CommandContext.values
    let before := scan js command all (.start all) pre
    (∀ remainder, parse (pre ++ (name ++ '=' :: value) :: post) =
      before.bind fun s => (give js s o value).bind fun s => (scan js command all s post).bind
        fun s => (finish command all remainder s).map CommandContext.values) ∧
      (Accepted o value →
        parse (pre ++ name :: value :: post) = parse (pre ++ (name ++ '=' :: value) :: post)) ∧
      (¬ Accepted o value → parse (pre ++ name :: value :: post) =
        before.bind fun s => (markSeen s o).bind fun _ => missingValue o) := by
  intro all parse before
  have hparse : ∀ tail remainder, parse (pre ++ tail) = before.bind fun s =>
      (scan js command all s tail).bind fun s =>
        (finish command all remainder s).map CommandContext.values := values_parse hposition
  refine ⟨fun remainder => ?_, fun haccepted => ?_, fun hrefused => ?_⟩
  · rw [hparse _ remainder]
    apply bind_scan_congr hposition
    intro s hs
    rw [scan_inline hs hfind htype hname hvalue]
    cases give js s o value with
    | error e | ok s₁ => rfl
  · rw [hparse _ [], hparse _ []]
    apply bind_scan_congr hposition
    intro s hs
    rw [scan_inline hs hfind htype hname hvalue, scan_separate hs hfind htype hname hend,
      if_pos haccepted]
  · rw [hparse _ []]
    apply bind_scan_congr hposition
    intro s hs
    rw [scan_separate hs hfind htype hname hend, if_neg hrefused]
    cases markSeen s o with
    | error e | ok s₁ => rfl

end Forms

/-! ## Two commands -/

/-- A command with one argument and the option `--out <value>`, or `-o <value>`. -/
def render : CommandDescriptor where
  name := "render".toList
  arguments := [⟨"file".toList, true, false, none, none, none⟩]
  options := [⟨"out".toList, none, some ['o'], [], some .string, none, none, false, false, none⟩]

/-- Conversions that agree with those of the language on what `render` converts: nothing. -/
def noConversions : Conversions := ⟨fun _ => .nonFinite, fun _ => none, JsValue.elems?⟩

/-- A value with a blank, in the short form of the option and after the argument. -/
theorem option_forms_render :
    (parseCommandContext noConversions render [] ["f".toList, "-o".toList, "a b".toList]).map
        CommandContext.values =
      (parseCommandContext noConversions render [] ["f".toList, "-o=a b".toList]).map
        CommandContext.values := by
  have hforms := @option_forms noConversions render (render.options.head (by decide)) "-o".toList
    "a b".toList ["f".toList] [] [] rfl (by decide) (by decide) (by decide) (by decide) (by decide)
  exact hforms.2.1 (by decide)

/-- A value that starts with a dash is kept after `=` and refused as the next token. -/
theorem not_option_forms_dash :
    ¬ ∀ (js : Conversions) (command : CommandDescriptor) (globalOptions : List OptionDescriptor)
      (pre post : List Text) (name value : Text) (o : OptionDescriptor),
      findOption (globalOptions ++ command.options) name = some o → o.type ≠ some .boolean →
        (parseCommandContext js command globalOptions (pre ++ name :: value :: post)).map
            CommandContext.values =
          (parseCommandContext js command globalOptions
            (pre ++ (name ++ '=' :: value) :: post)).map CommandContext.values := by
  intro h
  have hforms := h noConversions render [] ["f".toList] [] "--out".toList "-1".toList _ rfl
    (by decide)
  have hok := congrArg Except.isOk hforms
  revert hok
  decide

end TransformHub.Config
