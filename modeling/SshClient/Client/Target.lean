import SshClient.Client.Config
import SshClient.KnownHosts.Separation
import Mathlib.Data.List.TakeWhile

/-!
# The target of a run

Which command lines are accepted and what they mean, and that two targets never share an
entry of the known-hosts file.

The port is read by a conversion that takes a sign. A negative number of a certain size
is negated modulo `2 ^ 64` into the range of ports, and this is the only way in which the
accepted command lines differ from the intended ones.
-/

namespace SshClient.Config

open Control

variable {text : Bytes} {argv : List Bytes} {config : ClientConfig}

/-! ### Integers in base ten -/

/-- Blanks, an optional sign, and digits up to the end, with the value they denote. -/
def IntegerText (text : Bytes) (value : Int) : Prop :=
  ∃ spaces sign digits : Bytes, text = spaces ++ (sign ++ digits) ∧
    (∀ c ∈ spaces, KnownHosts.isSpace c = true) ∧ digits ≠ [] ∧ (∀ c ∈ digits, isDigit c = true) ∧
    (((sign = [] ∨ sign = [43]) ∧ value = digitsValue digits) ∨
      (sign = [45] ∧ value = -(digitsValue digits : Int)))

/-- The sign and what stands behind it. -/
def splitSign : Bytes → Bool × Bytes
  | 45 :: rest => (true, rest)
  | 43 :: rest => (false, rest)
  | rest => (false, rest)

theorem stoul_eq (text : Bytes) :
    stoul text =
      let unspaced := splitSign (text.dropWhile KnownHosts.isSpace)
      let digits := unspaced.2.takeWhile isDigit
      let parsed := text.length - unspaced.2.length + digits.length
      if digits = [] then none
      else if digitsValue digits > 18446744073709551615 then none
      else if unspaced.1 then
        some ((18446744073709551616 - digitsValue digits) % 18446744073709551616, parsed)
      else some (digitsValue digits, parsed) := rfl

theorem splitSign_cases (bytes : Bytes) :
    (∃ rest, bytes = 45 :: rest ∧ splitSign bytes = (true, rest)) ∨
      (∃ rest, bytes = 43 :: rest ∧ splitSign bytes = (false, rest)) ∨
      splitSign bytes = (false, bytes) := by
  unfold splitSign
  split
  next rest => exact .inl ⟨rest, rfl, rfl⟩
  next rest => exact .inr (.inl ⟨rest, rfl, rfl⟩)
  next => exact .inr (.inr rfl)

theorem splitSign_length (bytes : Bytes) : (splitSign bytes).2.length ≤ bytes.length := by
  obtain ⟨rest, rfl, h⟩ | ⟨rest, rfl, h⟩ | h := splitSign_cases bytes <;> simp [h]

theorem isSpace_of_isDigit {c : UInt8} (h : isDigit c = true) : KnownHosts.isSpace c = false := by
  simp only [isDigit, Bool.and_eq_true, decide_eq_true_eq, UInt8.le_iff_toNat_le] at h
  simp only [KnownHosts.isSpace, Bool.or_eq_false_iff, Bool.and_eq_false_iff, beq_eq_false_iff_ne,
    decide_eq_false_iff_not, UInt8.le_iff_toNat_le, ne_eq, ← UInt8.toNat_inj]
  have h1 := h.1
  have h2 := h.2
  simp at h1 h2 ⊢
  omega

/-- Behind the blanks of an integer stand its sign and its digits. -/
theorem integerText_iff {value : Int} :
    IntegerText text value ↔
      (splitSign (text.dropWhile KnownHosts.isSpace)).2 ≠ [] ∧
        (∀ c ∈ (splitSign (text.dropWhile KnownHosts.isSpace)).2, isDigit c = true) ∧
        value = if (splitSign (text.dropWhile KnownHosts.isSpace)).1 then
            -(digitsValue (splitSign (text.dropWhile KnownHosts.isSpace)).2 : Int)
          else digitsValue (splitSign (text.dropWhile KnownHosts.isSpace)).2 := by
  constructor
  · rintro ⟨spaces, sign, digits, rfl, hspaces, hne, hdigits, hvalue⟩
    obtain ⟨c, rest, rfl⟩ := List.exists_cons_of_ne_nil hne
    have hc := hdigits c List.mem_cons_self
    have hdrop : ∀ first tail, KnownHosts.isSpace first = false →
        (spaces ++ first :: tail).dropWhile KnownHosts.isSpace = first :: tail := by
      intro first tail hfirst
      rw [List.dropWhile_append_of_pos hspaces, List.dropWhile_cons_of_neg (by simp [hfirst])]
    obtain ⟨rfl | rfl, rfl⟩ | ⟨rfl, rfl⟩ := hvalue
    · have hsplit : splitSign (c :: rest) = (false, c :: rest) := by
        unfold splitSign
        split
        next heq =>
          cases heq
          cases hc
        next heq =>
          cases heq
          cases hc
        next => rfl
      rw [List.nil_append, hdrop c rest (isSpace_of_isDigit hc), hsplit]
      exact ⟨by simp, hdigits, rfl⟩
    · rw [List.singleton_append, hdrop 43 (c :: rest) rfl]
      exact ⟨by simp [splitSign], hdigits, rfl⟩
    · rw [List.singleton_append, hdrop 45 (c :: rest) rfl]
      exact ⟨by simp [splitSign], hdigits, rfl⟩
  · rintro ⟨hne, hdigits, rfl⟩
    have htext := List.takeWhile_append_dropWhile (p := KnownHosts.isSpace) (l := text)
    have hspaces : ∀ c ∈ text.takeWhile KnownHosts.isSpace, KnownHosts.isSpace c = true :=
      fun c hc => List.mem_takeWhile_imp hc
    generalize text.takeWhile KnownHosts.isSpace = spaces at htext hspaces
    generalize text.dropWhile KnownHosts.isSpace = unspaced at htext hne hdigits ⊢
    subst htext
    refine ⟨spaces, ?_⟩
    obtain ⟨rest, rfl, h⟩ | ⟨rest, rfl, h⟩ | h := splitSign_cases unspaced
    · rw [h] at hne hdigits ⊢
      exact ⟨[45], rest, rfl, hspaces, hne, hdigits, .inr ⟨rfl, rfl⟩⟩
    · rw [h] at hne hdigits ⊢
      exact ⟨[43], rest, rfl, hspaces, hne, hdigits, .inl ⟨.inr rfl, rfl⟩⟩
    · rw [h] at hne hdigits ⊢
      exact ⟨[], unspaced, rfl, hspaces, hne, hdigits, .inl ⟨.inl rfl, rfl⟩⟩

/-- The whole text is converted exactly when it is an integer of at most 64 bits. -/
theorem stoul_whole {v : Nat} :
    stoul text = some (v, text.length) ↔
      ∃ value : Int, IntegerText text value ∧ value.natAbs ≤ 18446744073709551615 ∧
        (v : Int) = value % 18446744073709551616 := by
  have hlength := splitSign_length (text.dropWhile KnownHosts.isSpace)
  have hle := (List.dropWhile_sublist KnownHosts.isSpace (l := text)).length_le
  simp only [stoul_eq, integerText_iff]
  generalize splitSign (text.dropWhile KnownHosts.isSpace) = unspaced at hlength ⊢
  obtain ⟨negative, unsigned⟩ := unspaced
  dsimp only at hlength ⊢
  -- The count of characters reaches the end only when nothing stands behind the digits.
  have hwhole : text.length - unsigned.length + (unsigned.takeWhile isDigit).length = text.length ↔
      ∀ c ∈ unsigned, isDigit c = true := by
    have hprefix := List.takeWhile_prefix (p := isDigit) (l := unsigned)
    rw [← List.takeWhile_eq_self_iff]
    constructor
    · intro hparsed
      exact hprefix.eq_of_length (by have := hprefix.length_le; omega)
    · intro hself
      rw [hself]
      omega
  constructor
  · intro h
    split at h
    · cases h
    rename_i hne
    split at h
    · cases h
    rename_i hbound
    have hsome : (v : Int) = (if negative = true then
        -(digitsValue (unsigned.takeWhile isDigit) : Int)
        else digitsValue (unsigned.takeWhile isDigit)) % 18446744073709551616 ∧
        text.length - unsigned.length + (unsigned.takeWhile isDigit).length = text.length := by
      split at h
      · simp only [Option.some.injEq, Prod.mk.injEq] at h
        rw [if_pos ‹_›]
        omega
      · simp only [Option.some.injEq, Prod.mk.injEq] at h
        rw [if_neg ‹_›]
        omega
    have hdigits := hwhole.mp hsome.2
    rw [List.takeWhile_eq_self_iff.mpr hdigits] at hne hbound hsome
    refine ⟨_, ⟨hne, hdigits, rfl⟩, ?_, hsome.1⟩
    split <;> omega
  · rintro ⟨value, ⟨hne, hdigits, rfl⟩, hvalue, hv⟩
    have hparsed := hwhole.mpr hdigits
    rw [List.takeWhile_eq_self_iff.mpr hdigits] at hparsed ⊢
    rw [if_neg hne]
    split at hvalue
    · rename_i hnegative
      rw [if_pos hnegative] at hv
      rw [if_neg (by omega), if_pos hnegative]
      simp only [Option.some.injEq, Prod.mk.injEq]
      omega
    · rename_i hnegative
      rw [if_neg hnegative] at hv
      rw [if_neg (by omega), if_neg hnegative]
      simp only [Option.some.injEq, Prod.mk.injEq]
      omega

theorem IntegerText.unique {a b : Int} (ha : IntegerText text a) (hb : IntegerText text b) :
    a = b := by
  obtain ⟨-, -, rfl⟩ := integerText_iff.mp ha
  obtain ⟨-, -, rfl⟩ := integerText_iff.mp hb
  rfl

/-- The port is the value of the text modulo `2 ^ 64`. -/
theorem parsePort_ok {port : UInt16} :
    parsePort text = .ok port ↔
      ∃ value : Int, IntegerText text value ∧ value.natAbs ≤ 18446744073709551615 ∧
        (port.toNat : Int) = value % 18446744073709551616 ∧ port.toNat ≠ 0 := by
  have hport := port.toNat_lt
  constructor
  · intro h
    unfold parsePort at h
    split at h
    · cases h
    rename_i parsedPort parsedCharacters hstoul
    obtain ⟨_, hfail, hpure⟩ := bind_eq_ok.mp h
    rw [failIf_eq_ok, not_or, not_or, not_not] at hfail
    obtain ⟨rfl, hzero, hmax⟩ := hfail
    rw [pure_eq_ok] at hpure
    obtain ⟨value, htext, hvalue, hmod⟩ := stoul_whole.mp hstoul
    have hnat : port.toNat = parsedPort := by
      rw [hpure, UInt16.toNat_ofNat', Nat.mod_eq_of_lt (by omega)]
    exact ⟨value, htext, hvalue, by omega, by omega⟩
  · rintro ⟨value, htext, hvalue, hmod, hzero⟩
    unfold parsePort
    rw [stoul_whole.mpr ⟨value, htext, hvalue, hmod⟩]
    dsimp only
    refine bind_eq_ok.mpr ⟨(), failIf_eq_ok.mpr ?_, pure_eq_ok.mpr UInt16.ofNat_toNat.symm⟩
    omega

/-! ### The accepted command lines -/

/-- The first argument: one `@` with text on both of its sides. -/
structure Target (target username hostname : Bytes) : Prop where
  split : target = username ++ atSign :: hostname
  username_ne : username ≠ []
  hostname_ne : hostname ≠ []
  atSign_notMem_username : atSign ∉ username
  atSign_notMem_hostname : atSign ∉ hostname

/-- What a command line means: the two parts of the target, and the value of the port. -/
def Meaning (argv : List Bytes) (config : ClientConfig) : Prop :=
  ∃ program target ports, argv = program :: target :: ports ∧
    Target target config.username config.hostname ∧
    (ports = [] ∧ config.port = defaultSshPort ∨
      ∃ text value, ports = [text] ∧ IntegerText text value ∧ 1 ≤ value ∧ value ≤ 65535 ∧
        (config.port.toNat : Int) = value)

/-- Exactly the command lines with a meaning are accepted, and with that meaning. -/
def ParsedExactly (argv : List Bytes) : Prop :=
  ((∃ config, parseClientConfig argv = .ok config) ↔ ∃ config, Meaning argv config) ∧
    ∀ config, parseClientConfig argv = .ok config → Meaning argv config

/-- The first `@`, and what stands on its sides. -/
theorem findIdx?_atSign {target : Bytes} {separator : Nat} :
    target.findIdx? (· == atSign) = some separator ↔
      target = target.take separator ++ atSign :: target.drop (separator + 1) ∧
        atSign ∉ target.take separator := by
  induction target generalizing separator with
  | nil => simp
  | cons c rest ih =>
      rw [List.findIdx?_cons]
      split
      next hc =>
        rw [beq_iff_eq] at hc
        subst hc
        cases separator with
        | zero => simp
        | succ separator => simp
      next hc =>
        rw [beq_iff_eq] at hc
        cases separator with
        | zero => simp [hc]
        | succ separator => simp [ih, Ne.symm hc]

theorem target_iff {target username hostname : Bytes} :
    Target target username hostname ↔
      ∃ separator, target.findIdx? (· == atSign) = some separator ∧
        ¬ (separator = 0 ∨ separator = target.length - 1 ∨ atSign ∈ target.drop (separator + 1)) ∧
        username = target.take separator ∧ hostname = target.drop (separator + 1) := by
  constructor
  · rintro ⟨rfl, husername, hhostname, hfirst, hsecond⟩
    have htake : (username ++ atSign :: hostname).take username.length = username := by simp
    have hdrop : (username ++ atSign :: hostname).drop (username.length + 1) = hostname := by simp
    have hu := List.length_pos_of_ne_nil husername
    have hh := List.length_pos_of_ne_nil hhostname
    refine ⟨username.length, findIdx?_atSign.mpr ?_, ?_, htake.symm, hdrop.symm⟩
    · rw [htake, hdrop]
      exact ⟨rfl, hfirst⟩
    · rw [hdrop, List.length_append, List.length_cons]
      rintro (h | h | h)
      · omega
      · omega
      · exact hsecond h
  · rintro ⟨separator, hfind, hsides, rfl, rfl⟩
    obtain ⟨hsplit, hfirst⟩ := findIdx?_atSign.mp hfind
    rw [not_or, not_or] at hsides
    obtain ⟨hzero, hlast, hsecond⟩ := hsides
    have hlength := congrArg List.length hsplit
    rw [List.length_append, List.length_cons, List.length_take, List.length_drop] at hlength
    refine ⟨hsplit, List.ne_nil_of_length_pos ?_, List.ne_nil_of_length_pos ?_, hfirst, hsecond⟩
    · rw [List.length_take]
      omega
    · rw [List.length_drop]
      omega

/-- The configuration of a target, before a port is read. -/
def targetConfig (username hostname : Bytes) : ClientConfig :=
  { username := username, hostname := hostname }

/-- The configuration with the port of the second argument, if there is one. -/
def withPort (ports : List Bytes) (config : ClientConfig) : Except Stop ClientConfig :=
  match ports[0]? with
  | none => return config
  | some portText => return { config with port := ← parsePort portText }

theorem parseClientConfig_cons {program target : Bytes} {ports : List Bytes} :
    parseClientConfig (program :: target :: ports) = .ok config ↔
      ports.length ≤ 1 ∧ ∃ username hostname, Target target username hostname ∧
        withPort ports (targetConfig username hostname) = .ok config := by
  unfold parseClientConfig
  simp only [target_iff, List.getD_cons_succ, List.getD_cons_zero, List.getElem?_cons_succ,
    List.length_cons]
  constructor
  · intro h
    obtain ⟨_, hlength, h⟩ := bind_eq_ok.mp h
    rw [failIf_eq_ok] at hlength
    split at h
    · cases h
    next separator hfind =>
      obtain ⟨_, hsides, h⟩ := bind_eq_ok.mp h
      rw [failIf_eq_ok] at hsides
      exact ⟨by omega, _, _, ⟨separator, hfind, hsides, rfl, rfl⟩, h⟩
  · rintro ⟨hlength, username, hostname, ⟨separator, hfind, hsides, rfl, rfl⟩, h⟩
    refine bind_eq_ok.mpr ⟨(), failIf_eq_ok.mpr (by omega), ?_⟩
    simp only [hfind]
    exact bind_eq_ok.mpr ⟨(), failIf_eq_ok.mpr hsides, h⟩

/-- Every field of an accepted command line, the ones with a fixed value included. -/
theorem parseClientConfig_ok :
    parseClientConfig argv = .ok config ↔
      ∃ program target ports username hostname port, argv = program :: target :: ports ∧
        Target target username hostname ∧
        (ports = [] ∧ port = defaultSshPort ∨ ∃ text, ports = [text] ∧ parsePort text = .ok port) ∧
        config = { targetConfig username hostname with port := port } := by
  constructor
  · intro h
    match argv with
    | [] => cases h
    | [_] => cases h
    | program :: target :: ports =>
        obtain ⟨hlength, username, hostname, htarget, h⟩ := parseClientConfig_cons.mp h
        match ports with
        | [] =>
            exact ⟨program, target, [], username, hostname, _, rfl, htarget, .inl ⟨rfl, rfl⟩,
              pure_eq_ok.mp h⟩
        | [text] =>
            obtain ⟨port, hport, h⟩ := bind_eq_ok.mp h
            exact ⟨program, target, [text], username, hostname, port, rfl, htarget,
              .inr ⟨text, rfl, hport⟩, pure_eq_ok.mp h⟩
        | _ :: _ :: _ => simp at hlength
  · rintro ⟨program, target, ports, username, hostname, port, rfl, htarget, hports, rfl⟩
    obtain ⟨rfl, rfl⟩ | ⟨text, rfl, hport⟩ := hports
    · exact parseClientConfig_cons.mpr ⟨by simp, username, hostname, htarget, rfl⟩
    · exact parseClientConfig_cons.mpr ⟨by simp, username, hostname, htarget,
        bind_eq_ok.mpr ⟨port, hport, rfl⟩⟩

theorem meaning_of_ok (h : parseClientConfig argv = .ok config)
    (hports : ∀ program target text value, argv = [program, target, text] →
      IntegerText text value → 0 ≤ value ∨ value < -18446744073709551615 ∨
        -18446744073709486081 < value) : Meaning argv config := by
  obtain ⟨program, target, ports, username, hostname, port, rfl, htarget, hport, rfl⟩ :=
    parseClientConfig_ok.mp h
  refine ⟨program, target, ports, rfl, htarget, ?_⟩
  obtain ⟨rfl, rfl⟩ | ⟨text, rfl, hport⟩ := hport
  · exact .inl ⟨rfl, rfl⟩
  · obtain ⟨value, htext, hvalue, hmod, hzero⟩ := parsePort_ok.mp hport
    have hrange := hports program target text value rfl htext
    have hmax := port.toNat_lt
    exact .inr ⟨text, value, rfl, htext, by omega, by omega, by dsimp only; omega⟩

theorem ok_of_meaning (h : Meaning argv config) :
    parseClientConfig argv =
      .ok { targetConfig config.username config.hostname with port := config.port } := by
  obtain ⟨program, target, ports, rfl, htarget, hport⟩ := h
  refine parseClientConfig_ok.mpr ⟨program, target, ports, _, _, _, rfl, htarget, ?_, rfl⟩
  obtain ⟨rfl, hport⟩ | ⟨text, value, rfl, htext, hmin, hmax, hport⟩ := hport
  · exact .inl ⟨rfl, hport⟩
  · exact .inr ⟨text, rfl, parsePort_ok.mpr ⟨value, htext, by omega, by omega, by omega⟩⟩

/-- The command lines whose port is a negative number that `2 ^ 64` brings into the range. -/
def WrapsToPort (argv : List Bytes) : Prop :=
  ∃ program target username hostname text n, argv = [program, target, text] ∧
    Target target username hostname ∧ IntegerText text (-(n : Nat)) ∧
    18446744073709486081 ≤ n ∧ n ≤ 18446744073709551615

theorem not_exact_of_wraps (h : WrapsToPort argv) : ¬ ParsedExactly argv := by
  rintro ⟨-, hmeaning⟩
  obtain ⟨program, target, username, hostname, text, n, rfl, htarget, htext, hmin, hmax⟩ := h
  have hport : parsePort text = .ok (UInt16.ofNat (18446744073709551616 - n)) := by
    refine parsePort_ok.mpr ⟨_, htext, by omega, ?_, ?_⟩
    · rw [UInt16.toNat_ofNat', Nat.mod_eq_of_lt (by omega)]
      omega
    · rw [UInt16.toNat_ofNat', Nat.mod_eq_of_lt (by omega)]
      omega
  obtain ⟨_, _, ports, heq, -, hports⟩ := hmeaning _ (parseClientConfig_ok.mpr
    ⟨program, target, [text], username, hostname, _, rfl, htarget, .inr ⟨text, rfl, hport⟩, rfl⟩)
  cases heq
  obtain ⟨hnil, -⟩ | ⟨other, value, heq, hother, hpos, -⟩ := hports
  · cases hnil
  · cases heq
    have := hother.unique htext
    omega

/-- The intended command lines are the accepted ones, but for the ports that wrap. -/
theorem parseClientConfig_exact_iff (argv : List Bytes) :
    ParsedExactly argv ↔ ¬ WrapsToPort argv := by
  constructor
  · exact fun hexact hwraps => not_exact_of_wraps hwraps hexact
  · intro hwraps
    have hmeaning : ∀ config, parseClientConfig argv = .ok config → Meaning argv config := by
      intro config h
      refine meaning_of_ok h ?_
      rintro program target text value rfl htext
      obtain ⟨_, _, _, username, hostname, _, heq, htarget, -, -⟩ := parseClientConfig_ok.mp h
      cases heq
      by_contra hrange
      rw [not_or, not_or] at hrange
      refine hwraps ⟨program, target, username, hostname, text, value.natAbs, rfl, htarget, ?_,
        by omega, by omega⟩
      rwa [show (-(value.natAbs : Int)) = value by omega]
    refine ⟨⟨?_, ?_⟩, hmeaning⟩
    · rintro ⟨config, h⟩
      exact ⟨config, hmeaning config h⟩
    · rintro ⟨config, h⟩
      exact ⟨_, ok_of_meaning h⟩

/-- The number `1 - 2 ^ 64` is taken for port 1. -/
theorem parseClientConfig_wraps_toOne :
    ¬ ParsedExactly [ascii "ssh", ascii "u@h", ascii "-18446744073709551615"] ∧
      parseClientConfig [ascii "ssh", ascii "u@h", ascii "-18446744073709551615"] =
        .ok { username := ascii "u", hostname := ascii "h", port := 1 } := by
  refine ⟨not_exact_of_wraps ?_, by decide +kernel⟩
  refine ⟨_, _, ascii "u", ascii "h", _, 18446744073709551615, rfl, ?_, ?_, by decide, by decide⟩
  · exact ⟨by decide, by decide, by decide, by decide, by decide⟩
  · exact ⟨[], [45], ascii "18446744073709551615", by decide +kernel, by simp, by decide,
      by decide +kernel, .inr ⟨rfl, by decide +kernel⟩⟩

/-! ### The name of a target in the known-hosts file -/

/-- The decimal text of a number. -/
def decimal (n : Nat) : Bytes := ascii (toString n)

theorem decimal_eq (n : Nat) :
    decimal n = (Nat.toDigits 10 n).map fun c => UInt8.ofNat c.toNat := by
  change (Nat.repr n).toList.map _ = _
  rw [Nat.toList_repr]

theorem toNat_digit {c : Char} (h : c.isDigit = true) :
    48 ≤ c.toNat ∧ c.toNat ≤ 57 ∧ (UInt8.ofNat c.toNat).toNat = c.toNat := by
  have hrange := Char.isDigit_iff_toNat.mp h
  simp only [Char.reduceToNat] at hrange
  rw [UInt8.toNat_ofNat', Nat.mod_eq_of_lt (by omega)]
  exact ⟨hrange.1, hrange.2, rfl⟩

theorem isDigit_of_mem_decimal {n : Nat} {c : UInt8} (h : c ∈ decimal n) : isDigit c = true := by
  rw [decimal_eq] at h
  obtain ⟨digit, hdigit, rfl⟩ := List.mem_map.mp h
  have hrange := toNat_digit (Nat.isDigit_of_mem_toDigits (by decide) (by decide) hdigit)
  simp only [isDigit, Bool.and_eq_true, decide_eq_true_eq, UInt8.le_iff_toNat_le, hrange.2.2]
  exact ⟨hrange.1, hrange.2.1⟩

/-- The text determines the number. -/
theorem digitsValue_decimal (n : Nat) : digitsValue (decimal n) = n := by
  have hdigits : ∀ (digits : List Char) value, (∀ c ∈ digits, c.isDigit = true) →
      (digits.map fun c => UInt8.ofNat c.toNat).foldl (fun value c => value * 10 + (c.toNat - 48))
        value = Nat.ofDigitChars 10 digits value := by
    intro digits
    induction digits with
    | nil => simp
    | cons c digits ih =>
        intro value hall
        rw [List.map_cons, List.foldl_cons, ih _ fun c hc => hall c (List.mem_cons_of_mem _ hc),
          Nat.ofDigitChars_cons, (toNat_digit (hall c List.mem_cons_self)).2.2, Nat.mul_comm]
        rfl
  rw [digitsValue, decimal_eq, hdigits _ _ fun c hc =>
    Nat.isDigit_of_mem_toDigits (by decide) (by decide) hc, Nat.ofDigitChars_ten_toDigits]

/-- What is assumed of `getaddrinfo`: a name with a bracket or a blank is not resolved. -/
def PlainNames (resolves : Bytes → Bool) : Prop :=
  ∀ name, resolves name = true → ∀ c ∈ name, c ≠ 91 ∧ KnownHosts.isSpace c = false

theorem knownHostIdentifier_eq (config : ClientConfig) :
    knownHostIdentifier config =
      if config.port = defaultSshPort then config.hostname
      else 91 :: ((config.hostname ++ [93]) ++ 58 :: decimal config.port.toNat) := by
  unfold knownHostIdentifier
  split
  · rfl
  · simp [decimal, ascii]

theorem isName_knownHostIdentifier (hne : config.hostname ≠ [])
    (hplain : ∀ c ∈ config.hostname, KnownHosts.isSpace c = false) :
    KnownHosts.IsName (knownHostIdentifier config) := by
  rw [knownHostIdentifier_eq]
  split
  · exact ⟨hne, hplain⟩
  · refine ⟨by simp, fun c hc => ?_⟩
    simp only [List.mem_cons, List.mem_append, List.not_mem_nil, or_false] at hc
    obtain rfl | (hc | rfl) | rfl | hc := hc
    · rfl
    · exact hplain c hc
    · rfl
    · rfl
    · exact isSpace_of_isDigit (isDigit_of_mem_decimal hc)

theorem knownHostIdentifier_inj {config' : ClientConfig} (hplain : 91 ∉ config.hostname)
    (hplain' : 91 ∉ config'.hostname)
    (h : knownHostIdentifier config = knownHostIdentifier config') :
    config.hostname = config'.hostname ∧ config.port = config'.port := by
  have hcolon : ∀ n, 58 ∉ decimal n := by
    intro n hm
    have := isDigit_of_mem_decimal hm
    cases this
  rw [knownHostIdentifier_eq, knownHostIdentifier_eq] at h
  split at h
  · split at h
    · exact ⟨h, by simp_all⟩
    · exact absurd (by rw [h]; simp) hplain
  · split at h
    · exact absurd (by rw [← h]; simp) hplain'
    · obtain ⟨hhost, hport⟩ := Text.append_cons_inj_last (hcolon _) (hcolon _) (List.cons.inj h).2
      have hvalue := congrArg digitsValue hport
      rw [digitsValue_decimal, digitsValue_decimal] at hvalue
      exact ⟨List.append_cancel_right hhost, UInt16.toNat_inj.mp hvalue⟩

theorem hostname_ne_nil (h : parseClientConfig argv = .ok config) : config.hostname ≠ [] := by
  obtain ⟨_, _, _, _, _, _, -, htarget, -, rfl⟩ := parseClientConfig_ok.mp h
  exact htarget.hostname_ne

/-- Two targets share a name in the known-hosts file only when they are the same endpoint.
The entry of one is skipped in the search for the other wherever it stands, and a call of
`add` for one, whatever becomes of it, gives no entry to the other and takes none away. -/
theorem endpoints_never_share_entry {resolves : Bytes → Bool} (plain : PlainNames resolves)
    {argv argv' : List Bytes} {config config' : ClientConfig}
    (h : parseClientConfig argv = .ok config) (h' : parseClientConfig argv' = .ok config')
    (resolved : resolves config.hostname = true) (resolved' : resolves config'.hostname = true) :
    (KnownHosts.IsName (knownHostIdentifier config) ∧
      KnownHosts.IsName (knownHostIdentifier config')) ∧
    (knownHostIdentifier config = knownHostIdentifier config' →
      config.hostname = config'.hostname ∧ config.port = config'.port) ∧
    (¬ (config.hostname = config'.hostname ∧ config.port = config'.port) →
      ∀ (crypto : Crypto) (algorithm key : Bytes), KnownHosts.Base64 crypto →
        KnownHosts.IsName algorithm →
        (∀ text algorithm' text' bad before after,
          KnownHosts.encodeBase64 crypto key = .ok text →
          KnownHosts.checkLines (knownHostIdentifier config') algorithm' text' bad
              (before ++ KnownHosts.entryLine (knownHostIdentifier config) algorithm text ::
                after) =
            KnownHosts.checkLines (knownHostIdentifier config') algorithm' text' bad
              (before ++ after)) ∧
        ∀ hosts algorithm' key' status,
          KnownHosts.check crypto (outcome ((KnownHosts.add crypto (knownHostIdentifier config)
              algorithm key).run hosts)) (knownHostIdentifier config') algorithm' key' =
            .ok status →
          (status = .unknown ↔ KnownHosts.check crypto hosts (knownHostIdentifier config')
            algorithm' key' = .ok .unknown) ∧
          ((∀ content, hosts.content = some content →
              Text.Terminated KnownHosts.newline content) →
            KnownHosts.check crypto hosts (knownHostIdentifier config') algorithm' key' =
              .ok status)) := by
  have hname : KnownHosts.IsName (knownHostIdentifier config) :=
    isName_knownHostIdentifier (hostname_ne_nil h) fun c hc => (plain _ resolved c hc).2
  have hname' : KnownHosts.IsName (knownHostIdentifier config') :=
    isName_knownHostIdentifier (hostname_ne_nil h') fun c hc => (plain _ resolved' c hc).2
  have hinj := knownHostIdentifier_inj (fun hm => (plain _ resolved _ hm).1 rfl)
    fun hm => (plain _ resolved' _ hm).1 rfl
  refine ⟨⟨hname, hname'⟩, hinj, fun hdistinct crypto algorithm key base64 halgorithm => ⟨?_, ?_⟩⟩
  · intro text algorithm' text' bad before after hencode
    obtain ⟨hkey, htext⟩ := KnownHosts.of_encodeBase64 hencode
    exact KnownHosts.checkLines_skip hname halgorithm (base64.isName key text hkey htext)
      (fun heq => hdistinct (hinj heq)) bad before after
  · intro hosts algorithm' key' status hcheck
    exact KnownHosts.check_add_other base64 hname halgorithm
      (fun heq => hdistinct (hinj heq)) hcheck

/-- A resolver for the names without brackets and blanks. -/
def resolvesPlain (name : Bytes) : Bool :=
  name.all fun c => c != 91 && !KnownHosts.isSpace c

theorem plainNames_resolvesPlain : PlainNames resolvesPlain := by
  intro name hname c hc
  have := List.all_eq_true.mp hname c hc
  simpa using this

theorem endpoints_never_share_entry_otherPort :
    knownHostIdentifier { username := ascii "u", hostname := ascii "a", port := 2222 } =
        ascii "[a]:2222" ∧
      KnownHosts.check KnownHosts.textOnly
          (outcome ((KnownHosts.add KnownHosts.textOnly (ascii "[a]:2222") (ascii "ssh-ed25519")
            [4, 5]).run KnownHosts.endsWithNewline)) (ascii "a") (ascii "ssh-ed25519") [1] =
        .ok .matched ∧
      KnownHosts.check KnownHosts.textOnly KnownHosts.endsWithNewline (ascii "a")
        (ascii "ssh-ed25519") [1] = .ok .matched := by
  obtain ⟨-, -, hseparate⟩ := endpoints_never_share_entry plainNames_resolvesPlain
    (show parseClientConfig [ascii "ssh", ascii "u@a", ascii "2222"] = .ok
      { username := ascii "u", hostname := ascii "a", port := 2222 } by decide +kernel)
    (show parseClientConfig [ascii "ssh", ascii "u@a"] = .ok
      { username := ascii "u", hostname := ascii "a" } by decide +kernel)
    (by decide) (by decide)
  have hafter : KnownHosts.check KnownHosts.textOnly
      (outcome ((KnownHosts.add KnownHosts.textOnly (ascii "[a]:2222") (ascii "ssh-ed25519")
        [4, 5]).run KnownHosts.endsWithNewline)) (ascii "a") (ascii "ssh-ed25519") [1] =
      .ok .matched := by decide +kernel
  have hadd := (hseparate (by decide) KnownHosts.textOnly (ascii "ssh-ed25519") [4, 5]
    KnownHosts.base64_textOnly (KnownHosts.isName_of_forall (by decide) (by decide))).2
  refine ⟨by decide +kernel, hafter, (hadd KnownHosts.endsWithNewline _ _ _ hafter).2 ?_⟩
  intro content hcontent
  rw [← Option.some.inj hcontent]
  decide

end SshClient.Config
