import SupplyTrail.Settings
import SupplyTrail.Proofs.Checks
import SupplyTrail.Proofs.Text.Letters
import SupplyTrail.Proofs.Text.Numerals
/-!
# Settings — what an environment configures

Of an environment only the values of five keys matter, without the white space around them, and a blank value is none.
`Configures` says which settings the values are for, and `FirstFault` what is reported of values that are for none: the
first fault in the order network, contract, timeout.  Settings make an endpoint unless they replace the address of the
network by one that is not on the web (`settingsRead`).
-/
namespace SupplyTrail

/-! ## Whole numbers in texts -/

/-- The characters of a number in a text, which may have a plus before them. -/
def unsigned (text : String) : List Char :=
  match text.toList with
  | '+' :: cs => cs
  | cs => cs

/-- The number that the digits at the front of a text are, up to the first other character. -/
def leadingNumber (text : String) : Nat := Text.ofDigits ((unsigned text).takeWhile Text.isDigit)

/-- A text that is a whole number of 64 bits: a numeral, after a plus or without one. -/
structure IsWord (text : String) (n : Nat) : Prop where
  numeral : Text.Numeral (unsigned text) n
  fits : n < 2 ^ 64

/-- What a text is as a whole number of 64 bits: that number, or no such number, since the digits at its front are too
large a number or since it is not all digits. -/
inductive Word (text : String) : Except WordFault Nat → Prop
  | number {n : Nat} (h : IsWord text n) : Word text (.ok n)
  | tooLarge (h : 2 ^ 64 ≤ leadingNumber text) : Word text (.error .tooLarge)
  | invalidDigit (hfits : leadingNumber text < 2 ^ 64) (h : ∀ n, ¬ Text.Numeral (unsigned text) n) :
      Word text (.error .invalidDigit)

/-- What a run of digits comes to that is read onto a number. -/
def readOnto (n : Nat) (cs : List Char) : Nat := cs.foldl (fun n c => 10 * n + Text.digitValue c) n

theorem le_readOnto (n : Nat) (cs : List Char) : n ≤ readOnto n cs := by
  induction cs generalizing n with
  | nil => exact Nat.le_refl n
  | cons c cs ih => exact Nat.le_trans (by omega) (ih (10 * n + Text.digitValue c))

/-- What comes of reading characters onto a number below a bound. -/
inductive DigitsRead (bound n : Nat) (cs : List Char) : Except WordFault Nat → Prop
  | number (hdigit : ∀ c ∈ cs, Text.isDigit c = true) (hfits : readOnto n cs < bound) :
      DigitsRead bound n cs (.ok (readOnto n cs))
  | tooLarge (h : bound ≤ readOnto n (cs.takeWhile Text.isDigit)) : DigitsRead bound n cs (.error .tooLarge)
  | invalidDigit (hfits : readOnto n (cs.takeWhile Text.isDigit) < bound) (h : ¬ ∀ c ∈ cs, Text.isDigit c = true) :
      DigitsRead bound n cs (.error .invalidDigit)

theorem digitsRead_readWord {bound n : Nat} (hn : n < bound) (cs : List Char) :
    DigitsRead bound n cs (readWord bound n cs) := by
  induction cs generalizing n with
  | nil => exact .number nofun hn
  | cons c cs ih =>
    rw [readWord]
    cases hc : Text.isDigit c with
    | false => exact .invalidDigit (by rwa [List.takeWhile_cons_of_neg (by simp [hc])]) (by simp [hc])
    | true =>
      have htake : readOnto n ((c :: cs).takeWhile Text.isDigit) =
          readOnto (10 * n + Text.digitValue c) (cs.takeWhile Text.isDigit) := by
        rw [List.takeWhile_cons_of_pos hc]
        rfl
      rw [if_neg (by simp)]
      by_cases hlarge : bound ≤ 10 * n + Text.digitValue c
      · rw [if_pos hlarge]
        exact .tooLarge (htake ▸ Nat.le_trans hlarge (le_readOnto _ _))
      · rw [if_neg hlarge]
        have hrest := ih (Nat.lt_of_not_le hlarge)
        generalize readWord bound (10 * n + Text.digitValue c) cs = r at hrest
        cases hrest with
        | number hdigit hfits => exact .number (List.forall_mem_cons.2 ⟨hc, hdigit⟩) hfits
        | tooLarge h => exact .tooLarge (htake ▸ h)
        | invalidDigit hfits h => exact .invalidDigit (htake ▸ hfits) fun hall => h (List.forall_mem_cons.1 hall).2

theorem parseWord_eq (text : String) : parseWord text =
    if unsigned text = [] then .error .invalidDigit else readWord UInt64.size 0 (unsigned text) := by
  unfold parseWord unsigned
  split <;> simp_all

/-- A text that is a number begins with the digits of that number only. -/
theorem IsWord.leadingNumber_eq {text : String} {n : Nat} (h : IsWord text n) : leadingNumber text = n := by
  obtain ⟨-, hdigit, hvalue⟩ := Text.numeral_iff.1 h.numeral
  rw [leadingNumber, List.takeWhile_eq_self_iff.2 hdigit, hvalue]

theorem Word.unique {text : String} {r r' : Except WordFault Nat} (h : Word text r) (h' : Word text r') : r = r' := by
  have hfits : ∀ {n}, IsWord text n → leadingNumber text < 2 ^ 64 := fun h => h.leadingNumber_eq ▸ h.fits
  cases h with
  | number h =>
    cases h' with
    | number h' => rw [← h.leadingNumber_eq, h'.leadingNumber_eq]
    | tooLarge h' => exact absurd (hfits h) (Nat.not_lt.2 h')
    | invalidDigit _ h' => exact absurd h.numeral (h' _)
  | tooLarge h =>
    cases h' with
    | number h' => exact absurd (hfits h') (Nat.not_lt.2 h)
    | tooLarge => rfl
    | invalidDigit hfits => exact absurd hfits (Nat.not_lt.2 h)
  | invalidDigit hfits h =>
    cases h' with
    | number h' => exact absurd h'.numeral (h _)
    | tooLarge h' => exact absurd hfits (Nat.not_lt.2 h')
    | invalidDigit => rfl

theorem word_parseWord (text : String) : Word text (parseWord text) := by
  rw [parseWord_eq]
  split
  · next hnil => exact .invalidDigit (by rw [leadingNumber, hnil]; decide) fun n h => h.nonempty hnil
  · next hne =>
    have hread : DigitsRead UInt64.size 0 (unsigned text) (readWord UInt64.size 0 (unsigned text)) :=
      digitsRead_readWord (by decide) (unsigned text)
    generalize readWord UInt64.size 0 (unsigned text) = r at hread
    cases hread with
    | number hdigit hfits => exact .number ⟨Text.numeral_iff.2 ⟨hne, hdigit, rfl⟩, hfits⟩
    | tooLarge h => exact .tooLarge h
    | invalidDigit hfits h => exact .invalidDigit hfits fun n hn => h hn.digit

/-- **A text is read as the number that it is.** -/
theorem parseWord_eq_iff {text : String} {r : Except WordFault Nat} : parseWord text = r ↔ Word text r :=
  ⟨fun h => h ▸ word_parseWord text, fun h => (word_parseWord text).unique h⟩

example : parseWord "+0018446744073709551615" = .ok (2 ^ 64 - 1) ∧
    parseWord "18446744073709551616e" = .error .tooLarge ∧
    parseWord "1e18446744073709551616" = .error .invalidDigit := by
  decide +kernel

/-! ## Names of networks -/

namespace Network

/-- A name of a network, in any ASCII case; the main network has two. -/
inductive Named (name : String) : Network → Prop
  | own (n : Network) (h : Text.SameLetters name n.name) : Named name n
  | main (h : Text.SameLetters name "public") : Named name .mainnet

theorem named_iff {name : String} {n : Network} : Named name n ↔
    name.map Char.toLower = n.name ∨ name.map Char.toLower = "public" ∧ n = .mainnet := by
  have hown : n.name.map Char.toLower = n.name := by
    rw [← String.toList_inj, String.toList_map]
    cases n <;> decide
  have hmain : "public".map Char.toLower = "public" := by
    rw [← String.toList_inj, String.toList_map]
    decide
  constructor
  · rintro (⟨_, h⟩ | h)
    · exact .inl (hown ▸ Text.map_toLower_eq_iff.2 h)
    · exact .inr ⟨hmain ▸ Text.map_toLower_eq_iff.2 h, rfl⟩
  · rintro (h | ⟨h, rfl⟩)
    · exact .own n (Text.map_toLower_eq_iff.1 (h.trans hown.symm))
    · exact .main (Text.map_toLower_eq_iff.1 (h.trans hmain.symm))

/-- **A text is read as a network exactly if it names it between white space.** -/
theorem parse_eq_ok_iff {text : String} {n : Network} : parse text = .ok n ↔ Named (Text.trim text) n := by
  rw [named_iff, parse]
  generalize (Text.trim text).map Char.toLower = small
  split <;> cases n <;> simp_all [name]

theorem parse_eq_error_iff {text : String} {e : SettingError} :
    parse text = .error e ↔ (∀ n, ¬ Named (Text.trim text) n) ∧ e = .unknownNetwork text := by
  simp only [← parse_eq_ok_iff]
  rw [parse]
  split <;> simp [eq_comm]

end Network

/-! ## The values of an environment -/

namespace Settings

/-- The value of a key without the white space around it; it is empty if there is none. -/
def valueOf (lookup : String → Option String) (key : String) : String := Text.trim ((lookup key).getD "")

/-- A value that is there. -/
def given? (value : String) : Option String := if value = "" then none else some value

theorem get?_eq (lookup : String → Option String) (key : String) : get? lookup key = given? (valueOf lookup key) := by
  rw [get?, valueOf, given?]
  cases lookup key <;> rfl

theorem trim_valueOf (lookup : String → Option String) (key : String) :
    Text.trim (valueOf lookup key) = valueOf lookup key := Text.trim_trim _

/-- What a value selects: the network that it names, or the standard one if there is no value. -/
inductive Selects (value : String) : Except SettingError Network → Prop
  | standard (h : value = "") : Selects value (.ok .standard)
  | named {n : Network} (hgiven : value ≠ "") (h : Network.Named value n) : Selects value (.ok n)
  | unknown (hgiven : value ≠ "") (h : ∀ n, ¬ Network.Named value n) : Selects value (.error (.unknownNetwork value))

/-- The seconds that a value allows a request: the number that it is, if that is not zero, or the standard number if
there is no value. -/
inductive Allows (value : String) : Except SettingError Nat → Prop
  | standard (h : value = "") : Allows value (.ok standardTimeout)
  | seconds {n : Nat} (hgiven : value ≠ "") (h : Word value (.ok n)) (hleast : 1 ≤ n) : Allows value (.ok n)
  | zero (hgiven : value ≠ "") (h : Word value (.ok 0)) :
      Allows value (.error (.invalid timeoutKey "must be at least 1"))
  | noWord {fault : WordFault} (hgiven : value ≠ "") (h : Word value (.error fault)) :
      Allows value (.error (.invalid timeoutKey s!"{Text.quoted value}: {fault.message}"))

/-- The settings that the values of the five keys are for. -/
structure Configures (value : String → String) (s : Settings) : Prop where
  network : Selects (value networkKey) (.ok s.network)
  given : value contractKey ≠ ""
  contractId : s.contractId = value contractKey
  timeout : Allows (value timeoutKey) (.ok s.timeout)
  rpcUrl : s.rpcUrl = given? (value rpcUrlKey)
  signerUrl : s.signerUrl = (given? (value signerUrlKey)).getD standardSignerUrl

/-- The first fault of values that are for no settings. -/
inductive FirstFault (value : String → String) (e : SettingError) : Prop
  | network (h : Selects (value networkKey) (.error e))
  | contract {n : Network} (hnet : Selects (value networkKey) (.ok n)) (hid : value contractKey = "")
      (h : e = .missing contractKey)
  | timeout {n : Network} (hnet : Selects (value networkKey) (.ok n)) (hid : value contractKey ≠ "")
      (h : Allows (value timeoutKey) (.error e))

variable {value : String}

/-- The network that a value selects, as it is read. -/
def readNetwork : Option String → Except SettingError Network
  | some name => Network.parse name
  | none => .ok Network.standard

/-- The contract that a value is for, as it is read. -/
def readContract : Option String → Except SettingError String
  | some id => .ok id
  | none => .error (.missing contractKey)

theorem readNetwork_eq_iff {r : Except SettingError Network} (htrim : Text.trim value = value) :
    readNetwork (given? value) = r ↔ Selects value r := by
  unfold given?
  split
  · next h =>
    refine ⟨fun hr => hr ▸ .standard h, ?_⟩
    rintro (_ | ⟨hgiven, -⟩ | ⟨hgiven, -⟩)
    · rfl
    · contradiction
    · contradiction
  · next hgiven =>
    rw [readNetwork]
    cases r with
    | ok n =>
      rw [Network.parse_eq_ok_iff, htrim]
      exact ⟨.named hgiven, by rintro (hno | ⟨-, h⟩) <;> first | contradiction | exact h⟩
    | error e =>
      rw [Network.parse_eq_error_iff, htrim]
      exact ⟨fun ⟨hno, he⟩ => he ▸ .unknown hgiven hno, fun h => by cases h with | unknown _ h => exact ⟨h, rfl⟩⟩

theorem readContract_eq_iff {r : Except SettingError String} : readContract (given? value) = r ↔
    value ≠ "" ∧ r = .ok value ∨ value = "" ∧ r = .error (.missing contractKey) := by
  unfold given?
  split <;> simp_all [readContract, eq_comm]

theorem readTimeout_eq_iff {r : Except SettingError Nat} : readTimeout (given? value) = r ↔ Allows value r := by
  constructor
  · rintro rfl
    unfold given?
    split
    · next h => exact .standard h
    · next hgiven =>
      have hword := word_parseWord value
      rw [readTimeout]
      cases hparse : parseWord value with
      | error fault => exact .noWord hgiven (hparse ▸ hword)
      | ok n =>
        cases n with
        | zero => exact .zero hgiven (hparse ▸ hword)
        | succ n => exact .seconds hgiven (hparse ▸ hword) (Nat.succ_le_succ (Nat.zero_le n))
  · rintro (h | ⟨hgiven, h, hleast⟩ | ⟨hgiven, h⟩ | ⟨hgiven, h⟩)
    · rw [given?, if_pos h]
      rfl
    · obtain ⟨n, rfl⟩ := Nat.exists_eq_add_of_le' hleast
      rw [given?, if_neg hgiven, readTimeout, parseWord_eq_iff.2 h]
      rfl
    · rw [given?, if_neg hgiven, readTimeout, parseWord_eq_iff.2 h]
      rfl
    · rw [given?, if_neg hgiven, readTimeout, parseWord_eq_iff.2 h]

/-- The settings are read value by value, and the first fault ends the reading. -/
theorem read_eq (lookup : String → Option String) : read lookup =
    readNetwork (given? (valueOf lookup networkKey)) >>= fun network =>
      readContract (given? (valueOf lookup contractKey)) >>= fun contractId =>
        readTimeout (given? (valueOf lookup timeoutKey)) >>= fun timeout =>
          .ok ⟨network, contractId, given? (valueOf lookup rpcUrlKey),
            (given? (valueOf lookup signerUrlKey)).getD standardSignerUrl, timeout⟩ := by
  simp only [← get?_eq]
  rw [read]
  cases get? lookup networkKey <;> cases get? lookup contractKey <;> rfl

theorem read_eq_ok_iff {lookup : String → Option String} {s : Settings} :
    read lookup = .ok s ↔ Configures (valueOf lookup) s := by
  rw [read_eq]
  simp only [bind_eq_ok_iff, readNetwork_eq_iff (trim_valueOf _ _), readContract_eq_iff, readTimeout_eq_iff]
  constructor
  · rintro ⟨n, hnet, id, (⟨hgiven, hid⟩ | ⟨-, hid⟩), seconds, htimeout, hs⟩
    · cases hid
      cases hs
      exact ⟨hnet, hgiven, rfl, htimeout, rfl, rfl⟩
    · cases hid
  · obtain ⟨network, contractId, rpcUrl, signerUrl, timeout⟩ := s
    rintro ⟨hnet, hgiven, rfl, htimeout, rfl, rfl⟩
    exact ⟨network, hnet, _, .inl ⟨hgiven, rfl⟩, timeout, htimeout, rfl⟩

theorem read_eq_error_iff {lookup : String → Option String} {e : SettingError} :
    read lookup = .error e ↔ FirstFault (valueOf lookup) e := by
  rw [read_eq]
  simp only [bind_eq_error_iff, readNetwork_eq_iff (trim_valueOf _ _), readContract_eq_iff, readTimeout_eq_iff]
  constructor
  · rintro (hnet | ⟨n, hnet, ((⟨-, hid⟩ | ⟨hid, he⟩) | ⟨id, (⟨hgiven, -⟩ | ⟨-, hid⟩), htimeout | ⟨_, _, h⟩⟩)⟩)
    · exact .network hnet
    · cases hid
    · cases he
      exact .contract hnet hid rfl
    · exact .timeout hnet hgiven htimeout
    · cases h
    · cases hid
    · cases hid
  · rintro (hnet | ⟨hnet, hid, rfl⟩ | ⟨hnet, hgiven, htimeout⟩)
    · exact .inl hnet
    · exact .inr ⟨_, hnet, .inl (.inr ⟨hid, rfl⟩)⟩
    · exact .inr ⟨_, hnet, .inr ⟨_, .inl ⟨hgiven, rfl⟩, .inl htimeout⟩⟩

theorem exists_selects_iff :
    (∃ n, Selects value (.ok n)) ↔ value = "" ∨ ∃ n, Network.Named value n := by
  constructor
  · rintro ⟨n, (h | ⟨-, h⟩)⟩
    · exact .inl h
    · exact .inr ⟨n, h⟩
  · intro h
    by_cases hnone : value = ""
    · exact ⟨_, .standard hnone⟩
    · obtain ⟨n, hn⟩ := h.resolve_left hnone
      exact ⟨n, .named hnone hn⟩

theorem exists_allows_iff : (∃ n, Allows value (.ok n)) ↔ value = "" ∨ ∃ n, 1 ≤ n ∧ IsWord value n := by
  constructor
  · rintro ⟨n, (h | ⟨-, ⟨h⟩, hleast⟩)⟩
    · exact .inl h
    · exact .inr ⟨n, hleast, h⟩
  · intro h
    by_cases hnone : value = ""
    · exact ⟨_, .standard hnone⟩
    · obtain ⟨n, hleast, hn⟩ := h.resolve_left hnone
      exact ⟨n, .seconds hnone (.number hn) hleast⟩

theorem read_congr {lookup lookup' : String → Option String}
    (h : ∀ key ∈ keys, valueOf lookup key = valueOf lookup' key) : read lookup = read lookup' := by
  rw [read_eq, read_eq, h networkKey (by decide), h contractKey (by decide), h timeoutKey (by decide),
    h rpcUrlKey (by decide), h signerUrlKey (by decide)]

/-! ## Endpoints -/

/-- An address on the web. -/
def IsWebAddress (url : String) : Prop := "http://".toList <+: url.toList ∨ "https://".toList <+: url.toList

instance (url : String) : Decidable (IsWebAddress url) := inferInstanceAs (Decidable (_ ∨ _))

theorem isWebAddress_rpcUrl (n : Network) : IsWebAddress n.rpcUrl := by
  cases n <;> exact .inr (by decide)

theorem make_eq {contractId url : String} {n : Network} (hid : Text.isBlank contractId = false) :
    Endpoint.make contractId url n = if IsWebAddress url then .ok ⟨contractId, url, n⟩
      else .error (.invalid "rpc url" s!"{Text.quoted url} is not an http(s) URL") := by
  have hweb : (String.isPrefixOf "https://" url || String.isPrefixOf "http://" url) = true ↔ IsWebAddress url := by
    rw [Bool.or_eq_true, IsWebAddress, or_comm, String.isPrefixOf, String.isPrefixOf, String.startsWith_string_iff,
      String.startsWith_string_iff]
  rw [Endpoint.make, hid, if_neg Bool.false_ne_true]
  simp only [hweb]

/-- Settings that were read have a contract, so only the address decides whether they make an endpoint. -/
theorem endpoint_eq {lookup : String → Option String} {s : Settings} (h : read lookup = .ok s) : s.endpoint =
    if IsWebAddress (s.rpcUrl.getD s.network.rpcUrl)
    then .ok ⟨s.contractId, s.rpcUrl.getD s.network.rpcUrl, s.network⟩
    else .error (.invalid "rpc url" s!"{Text.quoted (s.rpcUrl.getD s.network.rpcUrl)} is not an http(s) URL") := by
  obtain ⟨-, hgiven, hid, -⟩ := read_eq_ok_iff.1 h
  have hblank : Text.isBlank s.contractId = false := by
    rw [← Bool.not_eq_true, Text.isBlank_iff_trim_eq_empty, hid, trim_valueOf]
    exact hgiven
  rw [← make_eq hblank, endpoint]
  cases s.rpcUrl <;> rfl

/-- What is read off an environment. -/
structure SettingsRead (lookup : String → Option String) : Prop where
  /-- An environment that has the same values between white space for the five keys is read alike, faults included; a
  blank value is the same as none. -/
  values : ∀ lookup', (∀ key ∈ keys, valueOf lookup key = valueOf lookup' key) → read lookup = read lookup'
  settings : ∀ s, read lookup = .ok s ↔ Configures (valueOf lookup) s
  fault : ∀ e, read lookup = .error e ↔ FirstFault (valueOf lookup) e
  accepted : (∃ s, read lookup = .ok s) ↔
    (valueOf lookup networkKey = "" ∨ ∃ n, Network.Named (valueOf lookup networkKey) n) ∧
      valueOf lookup contractKey ≠ "" ∧
      (valueOf lookup timeoutKey = "" ∨ ∃ n, 1 ≤ n ∧ IsWord (valueOf lookup timeoutKey) n)
  endpoint : ∀ s, read lookup = .ok s → ∀ e, s.endpoint = .ok e ↔
    (∀ url, s.rpcUrl = some url → IsWebAddress url) ∧ e = ⟨s.contractId, s.rpcUrl.getD s.network.rpcUrl, s.network⟩
  /-- Of settings that were read, nothing but the address is refused. -/
  noEndpoint : ∀ s, read lookup = .ok s → ∀ e, s.endpoint = .error e ↔
    ∃ url, s.rpcUrl = some url ∧ ¬ IsWebAddress url ∧
      e = .invalid "rpc url" s!"{Text.quoted url} is not an http(s) URL"

/-- **What an environment configures depends on the trimmed values of its five keys only**, and what it configures makes
an endpoint exactly if the address in it is on the web. -/
theorem settingsRead (lookup : String → Option String) : SettingsRead lookup where
  values := fun _ => read_congr
  settings := fun _ => read_eq_ok_iff
  fault := fun _ => read_eq_error_iff
  accepted := by
    rw [← exists_selects_iff, ← exists_allows_iff]
    simp only [read_eq_ok_iff]
    constructor
    · rintro ⟨s, hnet, hgiven, -, htimeout, -⟩
      exact ⟨⟨_, hnet⟩, hgiven, ⟨_, htimeout⟩⟩
    · rintro ⟨⟨n, hnet⟩, hgiven, ⟨seconds, htimeout⟩⟩
      exact ⟨⟨n, _, _, _, seconds⟩, hnet, hgiven, rfl, htimeout, rfl, rfl⟩
  endpoint := by
    intro s hs e
    rw [endpoint_eq hs]
    cases hurl : s.rpcUrl with
    | none => simp [isWebAddress_rpcUrl, eq_comm]
    | some url => by_cases hweb : IsWebAddress url <;> simp [hweb, eq_comm]
  noEndpoint := by
    intro s hs e
    rw [endpoint_eq hs]
    cases hurl : s.rpcUrl with
    | none => simp [isWebAddress_rpcUrl]
    | some url => by_cases hweb : IsWebAddress url <;> simp [hweb, eq_comm]

end Settings

end SupplyTrail
