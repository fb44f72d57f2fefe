import TransformHub.Js.Replace
import TransformHub.Js.WholeNumber
import TransformHub.Manager.CsrStructure

/-!
# The reader of OIDs

`derOid` with the Numbers it computes and the text it returns, against the encoding of object
identifiers in DER.
-/

namespace TransformHub.Manager.CsrEnrollment.Oid

open Js WholeNumber

/-- `value * 128 + (byte & 0x7f)`. -/
def nextValue (value : WholeNumber) (byte : UInt8) : WholeNumber :=
  (value.mul 128).add (byte &&& 0x7f).toNat

/-- The loop of `derOid`: what is pushed, and the value at the end. -/
def oidValues (value : WholeNumber) : List UInt8 → List WholeNumber × WholeNumber
  | [] => ([], value)
  | byte :: bytes =>
    let value := nextValue value byte
    if byte &&& 0x80 = 0 then
      (value :: (oidValues (some 0) bytes).1, (oidValues (some 0) bytes).2)
    else oidValues value bytes

/-- The parts that are joined; the first octet makes two of them. -/
def parts (first : UInt8) (values : List WholeNumber) : List WholeNumber :=
  some (min 2 (first.toNat / 40)) ::
    some (if 80 ≤ first.toNat then first.toNat - 80 else first.toNat % 40) :: values

def derOid (node : DerNode) : Except String (List Char) :=
  let unexpected :=
    "Expected DER OID (tag " ++ String.ofList (Nat.toDigits 16 node.tag.toNat) ++ ")"
  match node.value with
  | [] => .error unexpected
  | first :: rest =>
    let values := oidValues (some 0) rest
    if node.tag ≠ 0x06 then .error unexpected
    else if values.2 ≠ some 0 then .error "Invalid DER OID"
    else .ok (['.'].intercalate ((parts first values.1).map text))

/-! ## Object identifiers -/

structure Arcs where
  first : ℕ
  second : ℕ
  rest : List ℕ
  first_le : first ≤ 2
  second_lt : first < 2 → second < 40

/-- The octets of a subidentifier before its last one, of what stands before its last seven bits. -/
def continued (n : ℕ) : List UInt8 :=
  if n = 0 then [] else continued (n / 128) ++ [UInt8.ofNat (n % 128 + 128)]
termination_by n
decreasing_by omega

def subidentifier (n : ℕ) : List UInt8 := continued (n / 128) ++ [UInt8.ofNat (n % 128)]

namespace Arcs

variable (arcs : Arcs)

/-- The first two arcs share a subidentifier. -/
def joint : ℕ := arcs.first * 40 + arcs.second

def node : DerNode :=
  .node 0x06 (subidentifier arcs.joint ++ arcs.rest.flatMap subidentifier) []

def decimals : List (List Char) := (arcs.first :: arcs.second :: arcs.rest).map (Nat.toDigits 10)

def dotted : List Char := ['.'].intercalate arcs.decimals

end Arcs

/-- The Number for an arc: it is rounded where it first has more than 53 bits, and what comes after
is lost. -/
def arcNumber (n : ℕ) : WholeNumber :=
  if n < 2 ^ 53 then some n
  else if n / 128 < 2 ^ 53 then round n
  else (arcNumber (n / 128)).mul 128
termination_by n
decreasing_by omega

/-- The first two arcs fit in one octet. Every other arc has at most 53 bits; or it has at most 21
digits, and is what the fewest digits of its Number stand for. -/
structure Arcs.Plain (arcs : Arcs) : Prop where
  joint : arcs.joint < 128
  rest : ∀ n ∈ arcs.rest,
    n < 2 ^ 53 ∨ n < 10 ^ 21 ∧ ∃ v, arcNumber n = some v ∧ shortestValue v = n

/-! ## Subidentifiers -/

theorem low_bits : ∀ d < 128, (UInt8.ofNat d &&& 0x7f).toNat = d ∧ UInt8.ofNat d &&& 0x80 = 0 ∧
    (UInt8.ofNat (d + 128) &&& 0x7f).toNat = d ∧ UInt8.ofNat (d + 128) &&& 0x80 ≠ 0 := by
  decide

theorem low_bits_mod (n : ℕ) : (UInt8.ofNat (n % 128) &&& 0x7f).toNat = n % 128 ∧
    UInt8.ofNat (n % 128) &&& 0x80 = 0 ∧
    (UInt8.ofNat (n % 128 + 128) &&& 0x7f).toNat = n % 128 ∧
    UInt8.ofNat (n % 128 + 128) &&& 0x80 ≠ 0 :=
  low_bits _ (Nat.mod_lt n (by decide))

/-- A value that has more than 53 bits has lost what does not fit. -/
theorem arcNumber_cases (n : ℕ) : n < 2 ^ 53 ∧ arcNumber n = some n ∨
    2 ^ 53 ≤ n ∧ ∀ v, arcNumber n = some v → 2 ^ 53 ≤ v ∧ ulp v ∣ v := by
  induction n using Nat.strongRecOn with
  | ind n ih =>
    rw [arcNumber]
    split_ifs with hsmall hfirst
    · exact .inl ⟨hsmall, rfl⟩
    · exact .inr ⟨by omega, fun v hv => ⟨le_of_round hv (by omega), dvd_of_round hv⟩⟩
    · refine .inr ⟨by omega, fun v hv => ?_⟩
      obtain ⟨u, hu, hround⟩ := Option.bind_eq_some_iff.mp hv
      obtain ⟨hlt, -⟩ | ⟨-, hlarge⟩ := ih (n / 128) (by omega)
      · exact absurd hlt hfirst
      · have hle := (hlarge u hu).1
        exact ⟨le_of_round hround (by omega), dvd_of_round hround⟩

theorem text_arcNumber_iff (n : ℕ) : text (arcNumber n) = Nat.toDigits 10 n ↔
    n < 2 ^ 53 ∨ n < 10 ^ 21 ∧ ∃ v, arcNumber n = some v ∧ shortestValue v = n := by
  obtain ⟨hlt, hvalue⟩ | ⟨hle, hlarge⟩ := arcNumber_cases n
  · exact iff_of_true (by rw [hvalue, text_of_lt hlt]) (.inl hlt)
  · rw [or_iff_right (Nat.not_lt.mpr hle)]
    cases hvalue : arcNumber n with
    | none =>
      refine iff_of_false (fun htext => ?_) fun ⟨_, _, hnone, _⟩ => nomatch hnone
      have hmem : 'I' ∈ Nat.toDigits 10 n := htext ▸ (by decide : 'I' ∈ text none)
      exact absurd (Nat.isDigit_of_mem_toDigits (by decide) (by decide) hmem) (by decide)
    | some v =>
      have hv := (hlarge v hvalue).1
      rw [text_eq_iff (by omega)]
      simp

theorem nextValue_arcNumber {n : ℕ} {byte : UInt8} (hbyte : (byte &&& 0x7f).toNat = n % 128) :
    nextValue (arcNumber (n / 128)) byte = arcNumber n := by
  rw [nextValue, hbyte]
  obtain ⟨hlt, hvalue⟩ | ⟨hle, hlarge⟩ := arcNumber_cases (n / 128)
  · rw [hvalue, mul, Option.bind_some, round_mul hlt, add, Option.bind_some, arcNumber, if_pos hlt,
      Nat.mul_comm, Nat.div_add_mod]
    split_ifs with hsmall
    · exact round_of_lt hsmall
    · rfl
  · have hn : arcNumber n = (arcNumber (n / 128)).mul 128 := by
      rw [arcNumber.eq_def n, if_neg (by omega), if_neg (by omega)]
    rw [hn]
    cases hvalue : arcNumber (n / 128) with
    | none => rfl
    | some v =>
      obtain ⟨hv, hdvd⟩ := hlarge v hvalue
      exact mul_add hdvd hv (Nat.mod_lt n (by decide : 0 < 128))

/-! ## The loop -/

theorem foldl_continued (n : ℕ) : (continued n).foldl nextValue (some 0) = arcNumber n := by
  induction n using Nat.strongRecOn with
  | ind n ih =>
    rw [continued]
    split_ifs with hzero
    · rw [hzero, arcNumber, if_pos (by decide)]
      rfl
    · rw [List.foldl_append, ih _ (by omega)]
      exact nextValue_arcNumber (low_bits_mod n).2.2.1

theorem continues {n : ℕ} {byte : UInt8} (h : byte ∈ continued n) : byte &&& 0x80 ≠ 0 := by
  induction n using Nat.strongRecOn with
  | ind n ih =>
    rw [continued] at h
    split_ifs at h with hzero
    · cases h
    · rcases List.mem_append.mp h with h | h
      · exact ih _ (by omega) h
      · rw [List.mem_singleton.mp h]
        exact (low_bits_mod n).2.2.2

variable {value : WholeNumber} {octets bytes : List UInt8}

/-- A subidentifier is pushed at its last octet. -/
theorem oidValues_append {last : UInt8} (hcontinues : ∀ byte ∈ octets, byte &&& 0x80 ≠ 0)
    (hlast : last &&& 0x80 = 0) :
    oidValues value (octets ++ last :: bytes) =
      (nextValue (octets.foldl nextValue value) last :: (oidValues (some 0) bytes).1,
        (oidValues (some 0) bytes).2) := by
  induction octets generalizing value with
  | nil => rw [List.nil_append, oidValues, if_pos hlast]; rfl
  | cons octet octets ih =>
    obtain ⟨hoctet, hcontinues⟩ := List.forall_mem_cons.mp hcontinues
    rw [List.cons_append, oidValues, if_neg hoctet]
    exact ih hcontinues

theorem oidValues_flatMap (rest : List ℕ) :
    oidValues (some 0) (rest.flatMap subidentifier) = (rest.map arcNumber, some 0) := by
  induction rest with
  | nil => rfl
  | cons n rest ih =>
    obtain ⟨hlow, hlast, -, -⟩ := low_bits_mod n
    rw [List.flatMap_cons, subidentifier, List.append_assoc, List.singleton_append,
      oidValues_append (fun _ => continues) hlast, ih, foldl_continued, nextValue_arcNumber hlow]
    rfl

theorem derOid_eq_ok_iff {node : DerNode} {dotted : List Char} :
    derOid node = .ok dotted ↔ node.tag = 0x06 ∧ ∃ first rest, node.value = first :: rest ∧
      (oidValues (some 0) rest).2 = some 0 ∧
      ['.'].intercalate ((parts first (oidValues (some 0) rest).1).map text) = dotted := by
  unfold derOid
  cases node.value with
  | nil => simp
  | cons first rest =>
    dsimp only
    split_ifs with htag hvalue
    · simp [htag]
    · simp [hvalue]
    · rw [not_not] at htag hvalue
      simp [htag, hvalue]

/-! ## Dotted texts -/

theorem count_intercalate {ts : List (List Char)} (h : ts ≠ []) :
    (['.'].intercalate ts).count '.' + 1 = ts.flatten.count '.' + ts.length := by
  induction ts with
  | nil => exact absurd rfl h
  | cons t ts ih =>
    by_cases hts : ts = []
    · simp [hts, List.intercalate]
    · have hrest := ih hts
      rw [intercalate_cons t hts, List.count_append, List.count_cons_self, List.flatten_cons,
        List.count_append, List.length_cons]
      omega

/-- Texts with dots of their own make too many dots. -/
theorem intercalate_eq_iff {ts ds : List (List Char)} (hne : ds ≠ [])
    (hplain : '.' ∉ ds.flatten) (hlength : ds.length ≤ ts.length) :
    ['.'].intercalate ts = ['.'].intercalate ds ↔ ts = ds := by
  have hts : ts ≠ [] := by
    intro hnil
    rw [hnil, List.length_nil, Nat.le_zero, List.length_eq_zero_iff] at hlength
    exact hne hlength
  refine ⟨fun heq => ?_, fun heq => heq ▸ rfl⟩
  have hcount := count_intercalate hts
  rw [heq, count_intercalate hne, List.count_eq_zero.mpr hplain] at hcount
  have hdots : '.' ∉ ts.flatten := List.count_eq_zero.mp (by omega)
  simp only [List.mem_flatten, not_exists, not_and] at hdots hplain
  exact (intercalate_inj hts hne hdots hplain).mp heq

namespace Arcs

variable (arcs : Arcs)

theorem dot_notMem_decimals : '.' ∉ arcs.decimals.flatten := by
  intro hmem
  obtain ⟨d, hd, hdot⟩ := List.mem_flatten.mp hmem
  obtain ⟨n, -, rfl⟩ := List.mem_map.mp hd
  exact absurd (Nat.isDigit_of_mem_toDigits (by decide) (by decide) hdot) (by decide)

theorem dotted_iff {first : UInt8} {rest : List UInt8} {values : List WholeNumber}
    (hnode : arcs.node = .node 0x06 (first :: rest) [])
    (h : oidValues (some 0) rest = (values, some 0)) (hlength : arcs.rest.length ≤ values.length) :
    derOid arcs.node = .ok arcs.dotted ↔
      Nat.toDigits 10 (min 2 (first.toNat / 40)) = Nat.toDigits 10 arcs.first ∧
      Nat.toDigits 10 (if 80 ≤ first.toNat then first.toNat - 80 else first.toNat % 40) =
        Nat.toDigits 10 arcs.second ∧
      values.map text = arcs.rest.map (Nat.toDigits 10) := by
  have hfirst := first.toNat_lt
  have hjoined : derOid arcs.node = .ok arcs.dotted ↔
      ['.'].intercalate ((parts first values).map text) = ['.'].intercalate arcs.decimals := by
    rw [derOid_eq_ok_iff, hnode]
    simp [DerNode.tag, DerNode.value, h, dotted]
  rw [hjoined, intercalate_eq_iff (by simp [decimals]) arcs.dot_notMem_decimals
    (by simpa [decimals, parts] using hlength), parts, decimals]
  simp only [List.map_cons, List.cons.injEq]
  rw [text_of_lt (by omega), text_of_lt (by split_ifs <;> omega)]

variable {arcs}

theorem plain_iff (h : arcs.joint < 128) : arcs.Plain ↔
    (arcs.rest.map arcNumber).map text = arcs.rest.map (Nat.toDigits 10) := by
  rw [List.map_map, List.map_inj_left]
  exact ⟨fun hplain n hn => (text_arcNumber_iff n).mpr (hplain.rest n hn),
    fun hrest => ⟨h, fun n hn => (text_arcNumber_iff n).mp (hrest n hn)⟩⟩

theorem dotted_iff_of_lt (h : arcs.joint < 128) :
    derOid arcs.node = .ok arcs.dotted ↔ arcs.Plain := by
  have hjoint : subidentifier arcs.joint = [UInt8.ofNat arcs.joint] := by
    rw [subidentifier, continued, if_pos (by omega), Nat.mod_eq_of_lt h, List.nil_append]
  have htoNat : (UInt8.ofNat arcs.joint).toNat = arcs.joint :=
    UInt8.toNat_ofNat_of_lt' (Nat.lt_trans h (by decide))
  have hnode : arcs.node =
      .node 0x06 (UInt8.ofNat arcs.joint :: arcs.rest.flatMap subidentifier) [] := by
    rw [node, hjoint, List.singleton_append]
  rw [arcs.dotted_iff hnode (oidValues_flatMap _) (by simp), htoNat, plain_iff h]
  have hle := arcs.first_le
  have hlt := arcs.second_lt
  have hfirst : min 2 (arcs.joint / 40) = arcs.first := by
    unfold joint at h ⊢
    omega
  have hsecond : (if 80 ≤ arcs.joint then arcs.joint - 80 else arcs.joint % 40) =
      arcs.second := by
    unfold joint at h ⊢
    split_ifs <;> omega
  rw [hfirst, hsecond]
  simp

/-- The octets of the first subidentifier after its first one are taken for another arc. -/
theorem not_dotted (h : 128 ≤ arcs.joint) : derOid arcs.node ≠ .ok arcs.dotted := by
  obtain ⟨first, octets, hfirst⟩ : ∃ first octets, continued (arcs.joint / 128) = first :: octets := by
    refine List.exists_cons_of_ne_nil fun hnil => ?_
    rw [continued, if_neg (by omega)] at hnil
    simp at hnil
  have hcontinues : ∀ octet ∈ octets, octet &&& 0x80 ≠ 0 :=
    fun octet hmem => continues (hfirst ▸ List.mem_cons_of_mem _ hmem)
  have hnode : arcs.node = .node 0x06 (first :: (octets ++
      UInt8.ofNat (arcs.joint % 128) :: arcs.rest.flatMap subidentifier)) [] := by
    rw [node, subidentifier, hfirst]
    simp
  have hvalues := @oidValues_append (some 0) octets (arcs.rest.flatMap subidentifier) _ hcontinues
    (low_bits_mod arcs.joint).2.1
  rw [oidValues_flatMap] at hvalues
  rw [Ne, arcs.dotted_iff hnode hvalues (by simp)]
  rintro ⟨-, -, htexts⟩
  have hlength := congrArg List.length htexts
  simp at hlength

end Arcs

/-! ## Padding -/

theorem oidValues_padded (value : WholeNumber) (bytes : List UInt8) :
    oidValues value (bytes ++ [0x80]) =
      ((oidValues value bytes).1, nextValue (oidValues value bytes).2 0x80) := by
  induction bytes generalizing value with
  | nil => rfl
  | cons byte bytes ih =>
    rw [List.cons_append, oidValues, oidValues]
    split_ifs <;> simp only [ih]

/-- An octet that would begin another subidentifier may follow. -/
theorem derOid_padded {node : DerNode} {dotted : List Char} (h : derOid node = .ok dotted) :
    derOid (.node node.tag (node.value ++ [0x80]) node.children) = .ok dotted := by
  obtain ⟨htag, first, rest, hvalue, hend, hdotted⟩ := derOid_eq_ok_iff.mp h
  refine derOid_eq_ok_iff.mpr ⟨htag, first, rest ++ [0x80], ?_, ?_⟩
  · rw [DerNode.value, hvalue, List.cons_append]
  · rw [oidValues_padded, hend]
    exact ⟨rfl, hdotted⟩

/-- An object identifier is read as its arcs exactly where it is plain, and whatever is accepted
can be padded. -/
theorem derOid_dotted_iff (arcs : Arcs) (node : DerNode) :
    (derOid arcs.node = .ok arcs.dotted ↔ arcs.Plain) ∧
    ∀ dotted, derOid node = .ok dotted → ∃ value, value ≠ node.value ∧
      derOid (.node node.tag value node.children) = .ok dotted := by
  refine ⟨?_, fun dotted h => ⟨node.value ++ [0x80], by simp, derOid_padded h⟩⟩
  by_cases hjoint : arcs.joint < 128
  · exact Arcs.dotted_iff_of_lt hjoint
  · exact iff_of_false (Arcs.not_dotted (by omega)) fun hplain => hjoint hplain.joint

/-- The common name of a distinguished name. -/
theorem derOid_dotted_commonName :
    derOid (Arcs.node ⟨2, 5, [4, 3], by decide, by decide⟩) =
      .ok (Arcs.dotted ⟨2, 5, [4, 3], by decide, by decide⟩) :=
  (derOid_dotted_iff ⟨2, 5, [4, 3], by decide, by decide⟩ (.node 6 [] [])).1.mpr
    ⟨by decide, fun n hn => .inl ((by decide : ∀ n ∈ [4, 3], n < 2 ^ 53) n hn)⟩

/-- 2.999 is encoded as 88 37, which is read as 2.56.55. -/
theorem not_derOid_dotted_999 :
    derOid (Arcs.node ⟨2, 999, [], by decide, by decide⟩) ≠
      .ok (Arcs.dotted ⟨2, 999, [], by decide, by decide⟩) :=
  Arcs.not_dotted (by decide)

end TransformHub.Manager.CsrEnrollment.Oid
