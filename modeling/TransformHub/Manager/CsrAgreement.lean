import TransformHub.Lib.Lines
import TransformHub.Manager.CsrStructure

/-!
# What is examined of a CSR, and what is signed

`validateCsr` of `csr-enrollment.ts`.
-/

namespace TransformHub.Manager.CsrEnrollment

open Js

/-! ## Blocks -/

def beginMarker : List Char := "-----BEGIN CERTIFICATE REQUEST-----".toList

def endMarker : List Char := "-----END CERTIFICATE REQUEST-----".toList

/-- A digit of base64 as `openssl` takes it. -/
def isBase64Digit (c : Char) : Bool := c.isAlphanum || c = '+' || c = '/'

/-- The first block of a text that is a certificate request. -/
structure RequestBlock where
  before : List Char
  /-- header lines, with the empty line that ends them -/
  headers : List Char
  body : List Char
  after : List Char
  /-- the digits of the body -/
  data : List Char
  padding : ℕ
  first : ∀ line ∈ (Lines.lines '\n' before).1,
    (line.reverse.dropWhile fun c => decide (c.toNat ≤ 32)).reverse ≠ beginMarker
  digit : ∀ c ∈ data, isBase64Digit c = true
  body_eq : (body.filter fun c => !isWhiteSpace c) = data ++ List.replicate padding '='
  padded : padding ≤ 2 ∧ (data.length + padding) % 4 = 0

namespace RequestBlock

variable (b : RequestBlock)

/-- The text around the block and the block. -/
def text : List Char := b.before ++ beginMarker ++ b.headers ++ b.body ++ endMarker ++ b.after

def digits : List (Fin 64) := Base64.digits (b.data.flatMap codeUnits)

def content : List UInt8 := Base64.packDigits b.digits

end RequestBlock

/-- `openssl req -verify` and `openssl x509 -req`: the block of a text that they read, and the check
of the signature of its content. -/
structure Openssl where
  block : List Char → Option RequestBlock
  text_block : ∀ {csrPem b}, block csrPem = some b → b.text = csrPem
  verifies : List UInt8 → Bool

/-- What `validateCsr` tries. -/
def checkCsr (openssl : Openssl) (csrPem : List Char) (hubId : String) : Except String Unit :=
  if 256 * 1024 < (encodeChars csrPem).length then .error "CSR is too large"
  else
    match openssl.block csrPem with
    | none => .error "Command failed"
    | some b =>
      if openssl.verifies b.content then validateCsrStructure csrPem hubId
      else .error "Command failed"

def validateCsr (openssl : Openssl) (csrPem : List Char) (hubId : String) : Except String Unit :=
  match checkCsr openssl csrPem hubId with
  | .ok () => .ok ()
  | .error message => .error ("CSR validation failed: " ++ message)

/-- The digits that are left of a text without its markers and its white space. -/
def textDigits (csrPem : List Char) : List (Fin 64) :=
  Base64.digits ((strippedText csrPem).flatMap codeUnits)

def IsOneValue (bytes : List UInt8) : Prop :=
  ∃ tag header length, readHeader bytes = .ok (tag, header, length) ∧ header + length = bytes.length

/-- The digits of the text begin with those of the block, whose content is one DER value. -/
def RequestBlock.Leads (b : RequestBlock) (csrPem : List Char) : Prop :=
  Base64.Begins b.digits (textDigits csrPem) ∧ IsOneValue b.content

/-! ## What is examined -/

/-- The bytes that are examined are the content of a block exactly if the decoded text begins with
the content, and the content is one DER value. -/
theorem examined_eq_iff {csrPem : List Char} {node : DerNode} {n : ℕ} {content : List UInt8}
    (hread : readDerAll (csrDer csrPem) = .ok (node, n)) :
    examined csrPem = .ok content ↔ content <+: csrDer csrPem ∧ IsOneValue content := by
  obtain ⟨tag, header, length, hheader, rfl, hn⟩ := readHeader_of_readDer hread
  have hexamined : examined csrPem = .ok ((csrDer csrPem).take (header + length)) := by
    unfold examined
    rw [hread]
    rfl
  rw [hexamined, Except.ok.injEq]
  constructor
  · rintro rfl
    refine ⟨List.take_prefix _ _, tag, header, length, readHeader_take hheader (by omega), ?_⟩
    rw [List.length_take, Nat.min_eq_left hn]
  · rintro ⟨hbegins, tag', header', length', hcontent, hlength⟩
    obtain ⟨more, hmore⟩ := hbegins
    have hsame := readHeader_append hcontent more
    rw [hmore, hheader] at hsame
    cases hsame
    rw [hlength, ← hmore, List.take_left]

theorem digit_units {c : Char} (h : isBase64Digit c = true) :
    codeUnits c = [c.toNat] ∧ c.toNat % 256 ≠ 61 ∧
      ∃ v, Base64.unbase64 (c.toNat % 256) = some v := by
  have hrange : 65 ≤ c.toNat ∧ c.toNat ≤ 90 ∨ 97 ≤ c.toNat ∧ c.toNat ≤ 122 ∨
      48 ≤ c.toNat ∧ c.toNat ≤ 57 ∨ c.toNat = 43 ∨ c.toNat = 47 := by
    delta isBase64Digit Char.isAlphanum Char.isAlpha Char.isUpper Char.isLower Char.isDigit at h
    simp only [Bool.or_eq_true, Bool.and_eq_true, decide_eq_true_eq, ge_iff_le,
      UInt32.le_iff_toNat_le] at h
    rcases h with (((h | h) | h) | rfl) | rfl
    · exact .inl h
    · exact .inr (.inl h)
    · exact .inr (.inr (.inl h))
    · exact .inr (.inr (.inr (.inl rfl)))
    · exact .inr (.inr (.inr (.inr rfl)))
  have hlow : c.toNat % 256 = c.toNat := by omega
  refine ⟨if_pos (by omega), by omega, ?_⟩
  rw [hlow]
  unfold Base64.unbase64
  split_ifs with h₁ h₂ h₃ h₄ h₅
  · exact ⟨_, rfl⟩
  · exact ⟨_, rfl⟩
  · exact ⟨_, rfl⟩
  · exact ⟨_, rfl⟩
  · exact ⟨_, rfl⟩
  · omega

theorem digits_length {cs : List Char} (h : ∀ c ∈ cs, isBase64Digit c = true) :
    (Base64.digits (cs.flatMap codeUnits)).length = cs.length := by
  induction cs with
  | nil => rfl
  | cons c cs ih =>
    obtain ⟨hc, hcs⟩ := List.forall_mem_cons.mp h
    obtain ⟨hunits, hne, v, hv⟩ := digit_units hc
    rw [List.flatMap_cons, hunits, List.singleton_append, Base64.digits, if_neg hne, hv,
      List.length_cons, List.length_cons, ih hcs]

theorem RequestBlock.digits_length_mod (b : RequestBlock) : b.digits.length % 4 ≠ 1 := by
  obtain ⟨htwo, hfour⟩ := b.padded
  rw [RequestBlock.digits, digits_length b.digit]
  omega

theorem accepted_of_validateCsr {openssl : Openssl} {csrPem : List Char} {hubId : String}
    (haccepted : validateCsr openssl csrPem hubId = .ok ()) :
    ∃ b, openssl.block csrPem = some b ∧ openssl.verifies b.content = true ∧
      validateCsrStructure csrPem hubId = .ok () := by
  have hcheck : checkCsr openssl csrPem hubId = .ok () := by
    unfold validateCsr at haccepted
    split at haccepted
    next hok => exact hok
    next => cases haccepted
  unfold checkCsr at hcheck
  split_ifs at hcheck
  split at hcheck
  next => cases hcheck
  next b hblock =>
    split_ifs at hcheck with hverifies
    exact ⟨b, hblock, hverifies, hcheck⟩

/-- What is checked of a text that is accepted is what is signed exactly if, without its markers and
its white space, it begins with the digits of the block, whose content is one DER value. -/
theorem examined_signed_iff (openssl : Openssl) {csrPem : List Char} {hubId : String}
    (haccepted : validateCsr openssl csrPem hubId = .ok ()) :
    ∃ b, openssl.block csrPem = some b ∧ (examined csrPem = .ok b.content ↔ b.Leads csrPem) := by
  obtain ⟨b, hblock, -, hstructure⟩ := accepted_of_validateCsr haccepted
  refine ⟨b, hblock, ?_⟩
  unfold validateCsrStructure at hstructure
  cases hread : readDerAll (csrDer csrPem) with
  | error message =>
    rw [hread] at hstructure
    cases hstructure
  | ok read =>
    obtain ⟨node, n⟩ := read
    rw [examined_eq_iff hread]
    unfold RequestBlock.Leads
    rw [← Base64.packDigits_prefix_iff b.digits_length_mod]
    exact Iff.rfl

/-! ## Plain texts -/

/-! ## A text before the block -/

def base64Char (d : Fin 64) : Char :=
  if d.val < 26 then .ofNat (d.val + 65)
  else if d.val < 52 then .ofNat (d.val + 71)
  else if d.val < 62 then .ofNat (d.val - 4)
  else if d.val = 62 then '+'
  else '/'

/-- The digits of bytes, without padding. -/
def encodeBase64 : List UInt8 → List Char
  | a :: b :: c :: bytes =>
    base64Char (.ofNat 64 (a.toNat / 4)) :: base64Char (.ofNat 64 (a.toNat * 16 + b.toNat / 16)) ::
      base64Char (.ofNat 64 (b.toNat * 4 + c.toNat / 64)) :: base64Char (.ofNat 64 c.toNat) ::
        encodeBase64 bytes
  | [a, b] =>
    [base64Char (.ofNat 64 (a.toNat / 4)), base64Char (.ofNat 64 (a.toNat * 16 + b.toNat / 16)),
      base64Char (.ofNat 64 (b.toNat * 4))]
  | [a] => [base64Char (.ofNat 64 (a.toNat / 4)), base64Char (.ofNat 64 (a.toNat * 16))]
  | [] => []

def derValue (tag : UInt8) (contents : List UInt8) : List UInt8 :=
  tag :: .ofNat contents.length :: contents

/-- What is asked for: a request for the client `hub`, with a key on P-256. -/
def hubRequest : List UInt8 :=
  derValue 0x30
    (derValue 0x30
      (derValue 0x02 [0] ++
        derValue 0x30 (derValue 0x31 (derValue 0x30
          (derValue 0x06 [0x55, 4, 3] ++ derValue 0x0c [104, 117, 98]))) ++
        derValue 0x30 (derValue 0x30
          (derValue 0x06 [0x2a, 0x86, 0x48, 0xce, 0x3d, 2, 1] ++
            derValue 0x06 [0x2a, 0x86, 0x48, 0xce, 0x3d, 3, 1, 7])) ++
        derValue 0xa0 (derValue 0x30
          (derValue 0x06 [0x2a, 0x86, 0x48, 0x86, 0xf7, 0x0d, 1, 9, 14] ++
            derValue 0x31 (derValue 0x30
              (derValue 0x30 (derValue 0x06 [0x55, 0x1d, 17] ++
                  derValue 0x04 (derValue 0x30 (derValue 0x82 [104, 117, 98]))) ++
                derValue 0x30 (derValue 0x06 [0x55, 0x1d, 37] ++
                  derValue 0x04 (derValue 0x30
                    (derValue 0x06 [0x2b, 6, 1, 5, 5, 7, 3, 2])))))))) ++
      derValue 0x30 [] ++ derValue 0x05 [])

/-- A request of another subject, with a key and a signature of Ed25519 and without extensions. -/
def otherRequest : List UInt8 :=
  [48, 129, 139, 48, 63, 2, 1, 0, 48, 12, 49, 10, 48, 8, 6, 3, 85, 4, 3, 12, 1, 120, 48, 42, 48,
    5, 6, 3, 43, 101, 112, 3, 33, 0, 74, 210, 94, 102, 245, 186, 129, 214, 123, 108, 77, 199,
    241, 120, 31, 141, 226, 217, 19, 37, 254, 206, 160, 240, 59, 186, 223, 77, 215, 50, 61, 158,
    160, 0, 48, 5, 6, 3, 43, 101, 112, 3, 65, 0, 85, 40, 90, 230, 40, 64, 147, 41, 239, 199, 3,
    163, 37, 234, 206, 121, 242, 145, 244, 56, 229, 190, 41, 34, 203, 98, 154, 70, 165, 126, 156,
    47, 117, 187, 35, 219, 244, 150, 90, 151, 158, 134, 142, 192, 246, 127, 157, 241, 131, 153,
    205, 46, 233, 75, 186, 136, 224, 197, 197, 148, 138, 155, 76, 3]

theorem filter_otherRequest :
    ((encodeBase64 otherRequest).filter fun c => !isWhiteSpace c) = encodeBase64 otherRequest := by
  apply List.filter_eq_self.mpr
  apply List.all_eq_true.mp
  decide +kernel

/-- The block of the other request, behind the digits of the one for the hub. -/
def leadingBlock : RequestBlock where
  before := encodeBase64 hubRequest ++ ['=', '=', '\n']
  headers := []
  body := '\n' :: encodeBase64 otherRequest ++ ['=', '=', '\n']
  after := ['\n']
  data := encodeBase64 otherRequest
  padding := 2
  first := by decide +kernel
  digit := by
    apply List.all_eq_true.mp
    decide +kernel
  body_eq := by
    rw [List.cons_append, List.filter_cons_of_neg (by decide), List.filter_append,
      filter_otherRequest]
    congr 1
  padded := by decide +kernel

/-- `openssl` as it reads the text of a block. -/
def opensslReading (b : RequestBlock) (verifies : List UInt8 → Bool) : Openssl where
  block := fun csrPem => if csrPem = b.text then some b else none
  text_block := by
    intro csrPem b' hblock
    split_ifs at hblock with htext
    cases hblock
    exact htext.symm
  verifies := verifies

theorem block_opensslReading (b : RequestBlock) (verifies : List UInt8 → Bool) :
    (opensslReading b verifies).block b.text = some b := if_pos rfl

def sampleOpenssl : Openssl := opensslReading leadingBlock fun der => der = otherRequest

theorem leading_accepted : validateCsr sampleOpenssl leadingBlock.text "hub" = .ok () := by
  have hsize : ¬ 256 * 1024 < (encodeChars leadingBlock.text).length := by decide +kernel
  have hverifies : sampleOpenssl.verifies leadingBlock.content = true := by decide +kernel
  have hstructure : validateCsrStructure leadingBlock.text "hub" = .ok () := by decide +kernel
  unfold validateCsr checkCsr
  rw [if_neg hsize, sampleOpenssl, block_opensslReading]
  simp only
  rw [sampleOpenssl] at hverifies
  rw [if_pos hverifies, hstructure]

theorem content_leading : leadingBlock.content = otherRequest := by decide +kernel

theorem leading_examined : examined leadingBlock.text = .ok hubRequest := by decide +kernel

/-- The request for the hub is examined, the other one is signed. -/
theorem leadingText_not_signed :
    validateCsr sampleOpenssl leadingBlock.text "hub" = .ok () ∧
      sampleOpenssl.block leadingBlock.text = some leadingBlock ∧
        leadingBlock.content = otherRequest ∧ examined leadingBlock.text = .ok hubRequest ∧
          examined leadingBlock.text ≠ .ok leadingBlock.content := by
  refine ⟨leading_accepted, block_opensslReading _ _, content_leading, leading_examined, ?_⟩
  rw [leading_examined, content_leading]
  decide +kernel

theorem leadingBlock_not_leads : ¬ leadingBlock.Leads leadingBlock.text := by
  obtain ⟨b, hblock, hiff⟩ := examined_signed_iff sampleOpenssl leading_accepted
  have hsame : leadingBlock = b :=
    Option.some.inj ((block_opensslReading leadingBlock _).symm.trans hblock)
  subst hsame
  intro hleads
  have hexamined := leading_examined.symm.trans (hiff.mpr hleads)
  rw [content_leading] at hexamined
  exact absurd hexamined (by decide +kernel)

end TransformHub.Manager.CsrEnrollment
