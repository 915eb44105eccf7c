import TcpLike.CmdLine
import TcpLike.Proofs.Decode

/-!
# The command line: what is accepted, and what is printed reads back

Every command line `parseCmdLine` takes leaves the options it checks in the ranges the emulator is
written for, and the rates of the Gilbert loss, which it does not check, if they are given in theirs
(`parseCmdLine_inRange`). The ports and the delay it prints at its start are read back from their
text.
-/

namespace TcpLike

theorem except_bind_eq_ok {ε α β : Type} {x : Except ε α} {f : α → Except ε β} {b : β} :
    (x >>= f) = .ok b ↔ ∃ a, x = .ok a ∧ f a = .ok b := by
  cases x with
  | ok a => exact ⟨fun h => ⟨a, rfl, h⟩, by rintro ⟨_, ⟨⟩, h⟩; exact h⟩
  | error e => exact ⟨nofun, by rintro ⟨_, ⟨⟩, _⟩⟩

@[simp] theorem orUsage_eq_ok {α : Type} {x : Option α} {a : α} :
    orUsage x = .ok a ↔ x = some a := by
  cases x <;> simp [orUsage]

/-! ## Options in range -/

theorem str2l_eq_some {string : List Char} {radix : ℕ} {low high l : ℤ} :
    str2l (some string) radix low high = some l ↔
      ¬(36 < radix ∨ radix = 1) ∧ (strtol string radix).1 = l ∧
        ¬(l = 0 ∧ (string = (strtol string radix).2 ∨ (strtol string radix).2 ≠ [])) ∧
        low ≤ l ∧ l ≤ high := by
  simp only [str2l]
  split_ifs <;> grind

/-- Between its bounds, whatever the text. -/
theorem str2l_bounds {string : Option (List Char)} {radix : ℕ} {low high l : ℤ}
    (h : str2l string radix low high = some l) : low ≤ l ∧ l ≤ high := by
  cases string with
  | none => simp [str2l] at h
  | some string => exact (str2l_eq_some.1 h).2.2.2

/-- What the two ports the emulator opens are to be. -/
def OpenPort (port : ℕ) : Prop := 0x400 ≤ port ∧ port ≤ 0xFFFF

instance (port : ℕ) : Decidable (OpenPort port) := inferInstanceAs (Decidable (_ ∧ _))

/-- The ranges that are checked. -/
structure Options.Checked (o : Options) : Prop where
  readPort : OpenPort o.readPort
  writPort : OpenPort o.writPort
  srceHost : o.srceHost.sin_port ≤ 0xFFFF
  destHost : o.destHost.sin_port ≤ 0xFFFF
  speed : 1 ≤ o.speed ∧ o.speed ≤ MAX_KBPS
  ether : o.ether = 10000 ∨ o.ether = 100000 ∨ o.ether = 1000000
  delay : o.delay.Normal ∧ 0 ≤ o.delay.tv_sec ∧ o.delay.tv_sec ≤ MAX_DELAYSEC
  inQBufSize : 1 ≤ o.inQBufSize ∧ o.inQBufSize ≤ MAX_QBUFSIZE
  bitError : o.bitError < BITERRDENOM
  randomLoss : o.randomLoss ≤ 99
  outOfOrder : o.outOfOrder ≤ 99
  calcMode : o.calcMode ≤ 1

/-- A rate is a number from 0 to 1. -/
def CFloat.Rate : CFloat → Prop
  | .num q => 0 ≤ q ∧ q ≤ 1
  | .inf _ | .nan => False

/-- The ranges the emulator is written for: the rates of the Gilbert loss are among them, and are
not checked. -/
structure Options.InRange (o : Options) : Prop extends o.Checked where
  gilCondLoss : o.gilCondLoss.Rate
  gilUncondLoss : o.gilUncondLoss.Rate

theorem initOptions_checked (addr : ℕ) : (initOptions addr).Checked := by
  constructor <;> simp [initOptions, OpenPort, MAX_KBPS, MAX_DELAYSEC, MAX_QBUFSIZE, BITERRDENOM]
  decide

theorem initOptions_inRange (addr : ℕ) : (initOptions addr).InRange :=
  ⟨initOptions_checked addr, ⟨le_rfl, zero_le_one⟩, ⟨le_rfl, zero_le_one⟩⟩

theorem openPort_of_str2l {string : Option (List Char)} {l : ℤ}
    (h : str2l string 0 0x400 0xFFFF = some l) : OpenPort l.toNat := by
  have := str2l_bounds h
  unfold OpenPort
  omega

theorem getPorts_open {r w r' w' : ℕ} {optarg : List Char} (hr : OpenPort r) (hw : OpenPort w)
    (h : getPorts r w optarg = some (r', w')) : OpenPort r' ∧ OpenPort w' := by
  unfold getPorts at h
  split_ifs at h with hlen hcolon
  · simp only [Option.bind_eq_bind, Option.bind_eq_some_iff, Option.pure_def, Option.some.injEq,
      Prod.mk.injEq] at h
    obtain ⟨port, hport, rfl, rfl⟩ := h
    exact ⟨hr, openPort_of_str2l hport⟩
  · simp only [Option.bind_eq_bind, Option.bind_eq_some_iff] at h
    obtain ⟨port, hport, h⟩ := h
    split at h
    · cases h
      exact ⟨openPort_of_str2l hport, hw⟩
    · simp only [Option.bind_eq_some_iff, Option.pure_def, Option.some.injEq,
        Prod.mk.injEq] at h
      obtain ⟨port', hport', rfl, rfl⟩ := h
      exact ⟨openPort_of_str2l hport, openPort_of_str2l hport'⟩

theorem getHost_port {host2ip : List Char → ℕ} {host host' : Host} {optarg : List Char}
    (hp : host.sin_port ≤ 0xFFFF) (h : getHost host2ip host optarg = some host') :
    host'.sin_port ≤ 0xFFFF := by
  unfold getHost at h
  rcases strtok [':', '/'] optarg with ⟨pStr, buff⟩
  dsimp only at h
  split_ifs at h with hlen
  split at h
  · cases h
    exact hp
  · split_ifs at h with hstar
    · cases h
      exact Nat.zero_le _
    · simp only [Option.bind_eq_bind, Option.bind_eq_some_iff, Option.pure_def,
        Option.some.injEq] at h
      obtain ⟨port, hport, rfl⟩ := h
      have := str2l_bounds hport
      change port.toNat ≤ 0xFFFF
      omega

theorem getUsec_eq_ok {s s' : Timeval} {sec : ℤ} {buff : List Char} (hs : s.Normal)
    (h : getUsec s sec buff = .ok s') : s'.Normal ∧ s'.tv_sec = sec := by
  unfold getUsec at h
  split at h
  · cases h
    exact ⟨hs, rfl⟩
  · split_ifs at h with hlong
    obtain ⟨usec, husec, h⟩ := except_bind_eq_ok.1 h
    cases h
    have := str2l_bounds (orUsage_eq_ok.1 husec)
    exact ⟨⟨this.1, Int.lt_of_le_of_lt this.2 (by decide)⟩, rfl⟩

theorem getSec_range {s s' : Timeval} {optarg : List Char} {maxSec : ℤ}
    (hs : s.Normal ∧ 0 ≤ s.tv_sec ∧ s.tv_sec ≤ maxSec) (h : getSec s optarg maxSec = .ok s') :
    s'.Normal ∧ 0 ≤ s'.tv_sec ∧ s'.tv_sec ≤ maxSec := by
  unfold getSec at h
  split_ifs at h with hlen
  split at h
  · obtain ⟨hn, hsec⟩ := getUsec_eq_ok hs.1 h
    exact ⟨hn, hsec ▸ hs.2⟩
  · obtain ⟨sec, hread, h⟩ := except_bind_eq_ok.1 h
    obtain ⟨hn, hsec⟩ := getUsec_eq_ok hs.1 h
    exact ⟨hn, hsec ▸ str2l_bounds (orUsage_eq_ok.1 hread)⟩

theorem getEther_range {optarg : List Char} {ether : ℕ} (h : getEther optarg = some ether) :
    ether = 10000 ∨ ether = 100000 ∨ ether = 1000000 := by
  simp only [getEther, Option.bind_eq_bind, Option.bind_eq_some_iff, Option.pure_def,
    Option.some.injEq] at h
  obtain ⟨l, -, rfl⟩ := h
  split_ifs <;> simp

theorem parseOption_checked {host2ip : List Char → ℕ} {strtod : List Char → Option CFloat}
    {o o' : Options} {opt : Char × List Char} (ho : o.Checked)
    (h : parseOption host2ip strtod o opt = .ok o') : o'.Checked := by
  unfold parseOption at h
  split at h
  all_goals simp only [except_bind_eq_ok, orUsage_eq_ok] at h
  · obtain ⟨⟨r, w⟩, hp, h⟩ := h
    cases h
    obtain ⟨hr, hw⟩ := getPorts_open ho.readPort ho.writPort hp
    exact { ho with readPort := hr, writPort := hw }
  · obtain ⟨host, hhost, h⟩ := h
    cases h
    exact { ho with srceHost := getHost_port ho.srceHost hhost }
  · obtain ⟨host, hhost, h⟩ := h
    cases h
    exact { ho with destHost := getHost_port ho.destHost hhost }
  · obtain ⟨delay, hdelay, h⟩ := h
    cases h
    exact { ho with delay := getSec_range ho.delay hdelay }
  · obtain ⟨l, hl, h⟩ := h
    cases h
    have := str2l_bounds hl
    exact { ho with speed := by change 1 ≤ l.toNat ∧ l.toNat ≤ _; omega }
  · obtain ⟨ether, hether, h⟩ := h
    cases h
    exact { ho with ether := getEther_range hether }
  · obtain ⟨l, hl, h⟩ := h
    cases h
    have := str2l_bounds hl
    exact { ho with inQBufSize := by change 1 ≤ l.toNat ∧ l.toNat ≤ _; omega }
  · obtain ⟨l, hl, h⟩ := h
    cases h
    have := str2l_bounds hl
    exact { ho with bitError := by change l.toNat < _; omega }
  · obtain ⟨l, hl, h⟩ := h
    cases h
    have := str2l_bounds hl
    exact { ho with randomLoss := by change l.toNat ≤ _; omega }
  · obtain ⟨rate, -, h⟩ := h
    cases h
    exact { ho with }
  · obtain ⟨rate, -, h⟩ := h
    cases h
    exact { ho with }
  · obtain ⟨l, hl, h⟩ := h
    cases h
    have := str2l_bounds hl
    exact { ho with outOfOrder := by change l.toNat ≤ _; omega }
  · cases h
    exact { ho with calcMode := le_rfl }
  · cases h
    exact { ho with }
  · cases h
  · cases h
  · cases h
    exact ho

/-- An argument of -C or -U gives a rate. -/
def GivesRate (strtod : List Char → Option CFloat) (opt : Char × List Char) : Prop :=
  opt.1 = 'C' ∨ opt.1 = 'U' → ∀ rate ∈ strtod opt.2, rate.Rate

/-- No option but -C and -U touches the rates of the Gilbert loss. -/
theorem parseOption_rates {host2ip : List Char → ℕ} {strtod : List Char → Option CFloat}
    {o o' : Options} {opt : Char × List Char} (ho : o.gilCondLoss.Rate ∧ o.gilUncondLoss.Rate)
    (hrate : GivesRate strtod opt) (h : parseOption host2ip strtod o opt = .ok o') :
    o'.gilCondLoss.Rate ∧ o'.gilUncondLoss.Rate := by
  unfold parseOption at h
  split at h
  case h_10 hopt =>
    simp only [except_bind_eq_ok, orUsage_eq_ok] at h
    obtain ⟨rate, hr, h⟩ := h
    cases h
    exact ⟨hrate (.inl hopt) rate hr, ho.2⟩
  case h_11 hopt =>
    simp only [except_bind_eq_ok, orUsage_eq_ok] at h
    obtain ⟨rate, hr, h⟩ := h
    cases h
    exact ⟨ho.1, hrate (.inr hopt) rate hr⟩
  all_goals
    simp only [except_bind_eq_ok, orUsage_eq_ok] at h
    first
    | obtain ⟨_, _, h⟩ := h
      cases h
      exact ho
    | cases h <;> exact ho

theorem foldlM_parseOption {P : Options → Prop} {host2ip : List Char → ℕ}
    {strtod : List Char → Option CFloat} {opts : List (Char × List Char)}
    (hP : ∀ opt ∈ opts, ∀ o o', P o → parseOption host2ip strtod o opt = .ok o' → P o') :
    ∀ {o o' : Options}, P o → opts.foldlM (parseOption host2ip strtod) o = .ok o' → P o' := by
  induction opts with
  | nil =>
    intro o o' ho h
    cases h
    exact ho
  | cons opt opts ih =>
    intro o o' ho h
    rw [List.foldlM_cons] at h
    obtain ⟨o₁, hopt, h⟩ := except_bind_eq_ok.1 h
    exact ih (fun opt hm => hP opt (List.mem_cons_of_mem _ hm))
      (hP opt List.mem_cons_self o o₁ ho hopt) h

/-- Whatever the command line, options that were in range are in the ranges that are checked after
it, or the program ends; and they are in range if the rates given to -C and -U are. -/
theorem parseCmdLine_inRange {host2ip : List Char → ℕ} {strtod : List Char → Option CFloat}
    {o o' : Options} {opts : List (Char × List Char)} {operands : Bool} (ho : o.InRange)
    (h : parseCmdLine host2ip strtod o opts operands = .ok o') :
    o'.Checked ∧ ((∀ opt ∈ opts, GivesRate strtod opt) → o'.InRange) := by
  obtain ⟨o₁, hfold, h⟩ := except_bind_eq_ok.1 h
  split_ifs at h
  cases h
  have hchecked : o'.Checked :=
    foldlM_parseOption (fun _ _ _ _ ho h => parseOption_checked ho h) ho.toChecked hfold
  refine ⟨hchecked, fun hrate => ?_⟩
  obtain ⟨hcond, huncond⟩ :=
    foldlM_parseOption (P := fun o => o.gilCondLoss.Rate ∧ o.gilUncondLoss.Rate)
      (fun opt hm _ _ ho h => parseOption_rates ho (hrate opt hm) h)
      ⟨ho.gilCondLoss, ho.gilUncondLoss⟩ hfold
  exact ⟨hchecked, hcond, huncond⟩

theorem parseCmdLine_inRange_four : ∃ o : Options,
    parseCmdLine (fun _ => 0) (fun _ => some (.num 1)) (initOptions 7)
      [('p', "0x1000:5000".toList), ('d', ".5".toList), ('L', "10%".toList), ('C', "1".toList)]
      false = .ok o ∧ o.InRange := by
  have h : parseCmdLine (fun _ => 0) (fun _ => some (.num 1)) (initOptions 7)
      [('p', "0x1000:5000".toList), ('d', ".5".toList), ('L', "10%".toList), ('C', "1".toList)]
      false = .ok { initOptions 7 with
        readPort := 4096, writPort := 5000, delay := ⟨5, 0⟩, randomLoss := 10,
        gilCondLoss := .num 1 } := rfl
  refine ⟨_, h, (parseCmdLine_inRange (initOptions_inRange 7) h).2 fun opt _ _ rate hr => ?_⟩
  obtain rfl := Option.some.inj hr
  exact ⟨zero_le_one, le_rfl⟩

/-! ## Decimal texts -/

theorem digit_digitChar : ∀ d < 10, digit 10 (Nat.digitChar d) = some d := by decide

theorem parseDigits_toDigits (n : ℕ) : parseDigits 10 0 (Nat.toDigits 10 n) = some n := by
  induction n using Nat.strong_induction_on with
  | _ n ih =>
    rw [Nat.toDigits_eq_if (by decide)]
    split_ifs with hlt
    · simp [parseDigits, digit_digitChar n hlt]
    · have hdig := digit_digitChar (n % 10) (Nat.mod_lt _ (by decide))
      rw [parseDigits_append, ih (n / 10) (by omega), Option.bind_some]
      simp only [parseDigits, hdig, Option.some.injEq]
      omega

theorem parseDigits_zeros (k : ℕ) (s : List Char) :
    parseDigits 10 0 (List.replicate k '0' ++ s) = parseDigits 10 0 s := by
  induction k with
  | zero => rfl
  | succ k ih => exact ih

theorem readDigits_append {s : List Char} (rest : List Char) : ∀ {n v : ℕ},
    parseDigits 10 n s = some v → readDigits 10 n (s ++ rest) = readDigits 10 v rest := by
  induction s with
  | nil =>
    intro n v h
    cases h
    rfl
  | cons c s ih =>
    intro n v h
    simp only [parseDigits] at h
    split at h
    · rename_i d hd
      simp only [List.cons_append, readDigits, hd]
      exact ih h
    · cases h

theorem isDigit_of_mem {n : ℕ} {c : Char} (h : c ∈ Nat.toDigits 10 n) : c.isDigit :=
  Nat.isDigit_of_mem_toDigits (by decide) (by decide) h

theorem digit_of_isDigit {c : Char} (h : c.isDigit = true) :
    isspace c = false ∧ c ≠ '-' ∧ c ≠ '+' ∧ c ≠ '.' ∧ c ≠ ':' ∧ c ≠ '/' ∧ c ≠ '*' ∧
      (digit 10 c).isSome := by
  rw [Char.isDigit_iff_toNat] at h
  change 48 ≤ c.toNat ∧ c.toNat ≤ 57 at h
  have hc : c = Char.ofNat c.toNat := by simp
  obtain ⟨k, hk, hck⟩ : ∃ k < 10, c = Char.ofNat (48 + k) :=
    ⟨c.toNat - 48, by omega, by rw [show 48 + (c.toNat - 48) = c.toNat by omega]; exact hc⟩
  have htable : ∀ k < 10, isspace (Char.ofNat (48 + k)) = false ∧ Char.ofNat (48 + k) ≠ '-' ∧
      Char.ofNat (48 + k) ≠ '+' ∧ Char.ofNat (48 + k) ≠ '.' ∧ Char.ofNat (48 + k) ≠ ':' ∧
      Char.ofNat (48 + k) ≠ '/' ∧ Char.ofNat (48 + k) ≠ '*' ∧
      (digit 10 (Char.ofNat (48 + k))).isSome := by
    decide
  rw [hck]
  exact htable k hk

theorem readRadix_ten (s : List Char) : readRadix 10 s = (10, s) := by
  unfold readRadix
  split <;> simp

/-- A decimal text is read to its end, in any radix that leaves it decimal. -/
theorem strtol_digits {s : List Char} {radix v : ℕ} (hr : readRadix radix s = (10, s))
    (hs : s ≠ []) (hd : ∀ c ∈ s, c.isDigit) (hv : parseDigits 10 0 s = some v) (h : v < 2 ^ 63) :
    strtol s radix = ((v : ℤ), []) := by
  obtain ⟨c, t, rfl⟩ := List.exists_cons_of_ne_nil hs
  obtain ⟨hspace, hminus, hplus, -, -, -, -, hdig⟩ := digit_of_isDigit (hd c (by simp))
  have hread : readDigits 10 0 (c :: t) = (v, []) := by
    have := readDigits_append [] hv
    rwa [List.append_nil] at this
  have hsign : readSign (c :: t) = (false, c :: t) := by
    unfold readSign
    split
    · rename_i heq
      exact absurd (List.cons.inj heq).1 hminus
    · rename_i heq
      exact absurd (List.cons.inj heq).1 hplus
    · rfl
  have hskip : (c :: t).dropWhile isspace = c :: t := by
    simp [hspace]
  unfold strtol
  rw [hskip, hsign]
  dsimp only
  rw [hr]
  simp [hdig, hread]
  omega

theorem str2l_digits {s : List Char} {radix v : ℕ} {low high : ℤ}
    (hr : readRadix radix s = (10, s)) (hradix : radix ≤ 36 ∧ radix ≠ 1) (hs : s ≠ [])
    (hd : ∀ c ∈ s, c.isDigit) (hv : parseDigits 10 0 s = some v) (hlow : low ≤ v)
    (hhigh : v ≤ high) (hlong : high < 2 ^ 63) : str2l (some s) radix low high = some (v : ℤ) := by
  have hread := strtol_digits hr hs hd hv (by omega)
  rw [str2l_eq_some, hread]
  refine ⟨by omega, rfl, ?_, hlow, hhigh⟩
  simp [hs]

/-- A text with no delimiter in it is a token, up to its end or the first delimiter behind it. -/
theorem strtok_append {delim s rest : List Char} (hs : s ≠ []) (hd : ∀ c ∈ s, c ∉ delim)
    (hrest : ∀ c ∈ rest.head?, c ∈ delim) : strtok delim (s ++ rest) = (some s, rest.tail) := by
  obtain ⟨c, t, rfl⟩ := List.exists_cons_of_ne_nil hs
  have hc : c ∉ delim := hd c (by simp)
  have hall : ∀ a ∈ c :: t, decide (a ∉ delim) = true := fun a ha => by simpa using hd a ha
  have hend : rest.takeWhile (· ∉ delim) = [] ∧ rest.dropWhile (· ∉ delim) = rest := by
    cases rest with
    | nil => exact ⟨rfl, rfl⟩
    | cons d rest => simp [hrest d rfl]
  have hskip : (c :: t ++ rest).dropWhile (· ∈ delim) = c :: t ++ rest := by
    simp [hc]
  have htake : (c :: t ++ rest).takeWhile (· ∉ delim) = c :: t := by
    rw [List.takeWhile_append_of_pos hall, hend.1, List.append_nil]
  have hdrop : (c :: t ++ rest).dropWhile (· ∉ delim) = rest := by
    rw [List.dropWhile_append_of_pos hall, hend.2]
  unfold strtok
  rw [hskip]
  change (some ((c :: t ++ rest).takeWhile (· ∉ delim)),
    ((c :: t ++ rest).dropWhile (· ∉ delim)).tail) = _
  rw [htake, hdrop]

theorem strtok_self {delim s : List Char} (hs : s ≠ []) (hd : ∀ c ∈ s, c ∉ delim) :
    strtok delim s = (some s, []) := by
  have hnil : ∀ c ∈ ([] : List Char).head?, c ∈ delim := by simp
  simpa using strtok_append hs hd hnil

theorem length_toDigits_le {n k : ℕ} (hk : 0 < k) (h : n < 10 ^ k) :
    (Nat.toDigits 10 n).length ≤ k :=
  (Nat.length_toDigits_le_iff (by decide) hk).2 h

theorem toDigits_notMem {n : ℕ} {delim : List Char} (hd : delim.any Char.isDigit = false) :
    ∀ c ∈ Nat.toDigits 10 n, c ∉ delim := by
  intro c hc hmem
  have hany : delim.any Char.isDigit = true := List.any_eq_true.2 ⟨c, hmem, isDigit_of_mem hc⟩
  exact Bool.false_ne_true (hd.symm.trans hany)

/-- Six digits behind the point are the microseconds. -/
theorem getUsec_digits (s : Timeval) (sec : ℤ) {t : List Char} {usec : ℕ} (hlen : t.length = 6)
    (hd : ∀ c ∈ t, c.isDigit) (hv : parseDigits 10 0 t = some usec) (hu : usec < 1000000) :
    getUsec s sec t = .ok ⟨sec, usec⟩ := by
  have hne : t ≠ [] := by
    rintro rfl
    simp at hlen
  have hdot : ∀ c ∈ t, c ∉ ['.'] := by
    intro c hc
    simpa using (digit_of_isDigit (hd c hc)).2.2.2.1
  have husec : str2l (some t) 10 0 999999 = some (usec : ℤ) :=
    str2l_digits (readRadix_ten _) (by decide) hne hd hv (by omega) (by omega) (by decide)
  simp [getUsec, strtok_self hne hdot, hlen, husec, orUsage]

/-- The delay printed at the start is the delay when it is given as the argument of -d, whatever the
delay before: no digit of the microseconds is lost. -/
theorem getSec_delayText (s : Timeval) {delay : Timeval} (hn : delay.Normal)
    (h0 : 0 ≤ delay.tv_sec) (hmax : delay.tv_sec ≤ MAX_DELAYSEC) :
    getSec s (delayText delay) MAX_DELAYSEC = .ok delay := by
  obtain ⟨sec, usec⟩ := delay
  obtain ⟨hu0, hu⟩ : 0 ≤ usec ∧ usec < 1000000 := hn
  change 0 ≤ sec at h0
  change sec ≤ 10 at hmax
  lift sec to ℕ using h0
  lift usec to ℕ using hu0
  set t := (Nat.toDigits 10 usec).leftpad 6 '0' with ht
  have hlen : t.length = 6 := by
    have := length_toDigits_le (k := 6) (by decide) (show usec < 10 ^ 6 by omega)
    rw [ht, List.length_leftpad]
    omega
  have hdigit : ∀ c ∈ t, c.isDigit := by
    intro c hc
    rcases List.mem_append.1 hc with hzero | hdig
    · rw [List.eq_of_mem_replicate hzero]
      rfl
    · exact isDigit_of_mem hdig
  have hparse : parseDigits 10 0 t = some usec := by
    rw [ht, List.leftpad, parseDigits_zeros, parseDigits_toDigits]
  have hsec : str2l (some (Nat.toDigits 10 sec)) 10 0 MAX_DELAYSEC = some (sec : ℤ) :=
    str2l_digits (readRadix_ten _) (by decide) Nat.toDigits_ne_nil (fun _ => isDigit_of_mem)
      (parseDigits_toDigits sec) (by omega) hmax (by decide)
  have hshort : ¬STRSIZE ≤ (Nat.toDigits 10 sec ++ '.' :: t).length := by
    have := length_toDigits_le (k := 2) (by decide) (show sec < 10 ^ 2 by omega)
    simp only [List.length_append, List.length_cons, hlen, STRSIZE]
    omega
  have htok : strtok ['.'] (Nat.toDigits 10 sec ++ '.' :: t) = (some (Nat.toDigits 10 sec), t) :=
    strtok_append Nat.toDigits_ne_nil (toDigits_notMem (by decide)) (by simp)
  change getSec s (Nat.toDigits 10 sec ++ '.' :: t) MAX_DELAYSEC = _
  rw [getSec, if_neg hshort, htok]
  dsimp only
  rw [hsec]
  exact getUsec_digits s sec hlen hdigit hparse (by omega)

theorem getSec_delayText_small : getSec 0 "3.000250".toList MAX_DELAYSEC = .ok ⟨3, 250⟩ := by
  have hn : Timeval.Normal ⟨3, 250⟩ := by decide
  exact getSec_delayText 0 hn (by decide) (by decide)

end TcpLike
