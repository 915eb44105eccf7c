import TcpLike.Newudpl

/-!
# Departure times

`calcDepTime` in microseconds. A packet departs no earlier than its delay after it has come, and no
earlier than the packets before it have taken on the link, and later by its transmission delay
(`micros_calcDepTime`). On a 10 Mb/s Ethernet a transmission delay below a second is right to within
the rounding of its divisions (`calcDepTime_bounds`).
-/

namespace TcpLike

variable {o : Options} {bytes : ℕ} {now prvIntervled : Timeval}

theorem intervlTv_normal (o : Options) (bytes : ℕ) : (intervlTv o bytes).Normal := by
  unfold intervlTv Timeval.Normal
  generalize 8000 * bytes / o.speed = usec
  dsimp only
  split_ifs <;> constructor <;> dsimp only <;> omega

/-- The interval is the time the link takes for the packet. -/
theorem micros_intervlTv (o : Options) (bytes : ℕ) :
    (intervlTv o bytes).micros = (8000 * bytes / o.speed : ℕ) := by
  unfold intervlTv Timeval.micros
  generalize 8000 * bytes / o.speed = usec
  dsimp only
  split_ifs <;> dsimp only <;> omega

theorem transTv_normal (o : Options) (bytes : ℕ) : (transTv o bytes).Normal := by
  unfold transTv Timeval.Normal
  split_ifs <;> constructor <;> dsimp only <;> omega

/-- From a second on, what the transmission delay has beyond full seconds is lost. -/
theorem micros_transTv (o : Options) (bytes : ℕ) : (transTv o bytes).micros =
    if 1000000 ≤ transD o bytes then transD o bytes / 1000000 * 1000000 else transD o bytes := by
  unfold transTv Timeval.micros
  split_ifs <;> simp

theorem calcDepTime_normal (hn : now.Normal) (hp : prvIntervled.Normal) (hd : o.delay.Normal) :
    (calcDepTime o bytes now prvIntervled).1.Normal ∧
      (calcDepTime o bytes now prvIntervled).2.Normal := by
  refine ⟨(hp.maxTimeval (hn.addTimeval hd)).addTimeval (transTv_normal o bytes), ?_⟩
  show Timeval.Normal (if _ then _ else _)
  split_ifs
  · exact hn.addTimeval (intervlTv_normal o bytes)
  · exact hp.addTimeval (intervlTv_normal o bytes)

theorem le_addTimeval {a b : Timeval} (ha : a.Normal) (hb : b.Normal) (h : 0 ≤ b.micros) :
    a ≤ addTimeval a b := by
  rw [ha.le_iff_micros (ha.addTimeval hb), micros_addTimeval]
  omega

/-- A packet departs when its delay is over and the packets before it are through. -/
theorem max_le_calcDepTime (hn : now.Normal) (hp : prvIntervled.Normal) (hd : o.delay.Normal) :
    max prvIntervled (addTimeval now o.delay) ≤ (calcDepTime o bytes now prvIntervled).1 := by
  rw [← maxTimeval_eq]
  refine le_addTimeval (hp.maxTimeval (hn.addTimeval hd)) (transTv_normal o bytes) ?_
  rw [micros_transTv]
  split_ifs <;> positivity

/-- The departure time and the interval after it, in microseconds. -/
theorem micros_calcDepTime (hn : now.Normal) (hp : prvIntervled.Normal) (hd : o.delay.Normal) :
    (calcDepTime o bytes now prvIntervled).1.micros =
        max prvIntervled.micros (now.micros + o.delay.micros) +
          (if 1000000 ≤ transD o bytes then transD o bytes / 1000000 * 1000000
            else transD o bytes : ℕ) ∧
      (calcDepTime o bytes now prvIntervled).2.micros =
        (if o.calcMode = 1 then now.micros else prvIntervled.micros) +
          (8000 * bytes / o.speed : ℕ) := by
  have hmax : (maxTimeval prvIntervled (addTimeval now o.delay)).micros =
      max prvIntervled.micros (now.micros + o.delay.micros) := by
    have hle := hp.le_iff_micros (hn.addTimeval hd)
    rw [micros_addTimeval] at hle
    rw [maxTimeval_eq]
    rcases le_total prvIntervled (addTimeval now o.delay) with h | h
    · rw [max_eq_right h, max_eq_right (hle.1 h), micros_addTimeval]
    · have := (hn.addTimeval hd).le_iff_micros hp
      rw [micros_addTimeval] at this
      rw [max_eq_left h, max_eq_left (this.1 h)]
  constructor
  · show (addTimeval _ _).micros = _
    rw [micros_addTimeval, hmax, micros_transTv]
  · show Timeval.micros (if _ then _ else _) = _
    split_ifs <;> rw [micros_addTimeval, micros_intervlTv]

/-- With the link slower than the Ethernet and no 32-bit product overflowing, the transmission delay
is the difference of the two transmission times, short of it by less than the rounding of the two
divisions. -/
theorem transD_bounds_of_lt (hs : 0 < o.speed) (hse : o.speed < o.ether) (he : 1000 ≤ o.ether)
    (hbits : bytes * 8 * (o.ether - o.speed) < 2 ^ 32) (hprod : o.ether * o.speed < 2 ^ 32) :
    transD o bytes * (o.ether * o.speed) ≤ 8000 * bytes * (o.ether - o.speed) ∧
      8000 * bytes * (o.ether - o.speed) <
        (transD o bytes + 1) * (o.ether * o.speed) + 1000 * o.ether := by
  have hx : 8000 * bytes * (o.ether - o.speed) = bytes * 8 * (o.ether - o.speed) * 1000 := by ring
  rw [transD, if_pos hse, Nat.mod_eq_of_lt hbits, hx]
  generalize bytes * 8 * (o.ether - o.speed) = x at hbits
  have hts : 0 < o.ether * o.speed := by positivity
  dsimp only
  split_ifs with h
  · rw [Nat.mod_eq_of_lt (by omega), Nat.mod_eq_of_lt hprod]
    refine ⟨Nat.div_mul_le_self _ _, ?_⟩
    calc x * 1000 < o.ether * o.speed * (x * 1000 / (o.ether * o.speed) + 1) :=
          Nat.lt_mul_div_succ _ hts
      _ = (x * 1000 / (o.ether * o.speed) + 1) * (o.ether * o.speed) := Nat.mul_comm _ _
      _ ≤ _ := Nat.le_add_right _ _
  · have hyx : x / o.ether * o.ether ≤ x := Nat.div_mul_le_self _ _
    have hy : x / o.ether * 1000 < 2 ^ 32 :=
      (Nat.mul_le_mul_left _ he).trans_lt (hyx.trans_lt hbits)
    rw [Nat.mod_eq_of_lt hy]
    have hxy : x < o.ether * (x / o.ether + 1) := Nat.lt_mul_div_succ _ (by omega)
    generalize x / o.ether = y at hyx hxy
    have hz : y * 1000 / o.speed * o.speed ≤ y * 1000 := Nat.div_mul_le_self _ _
    have hyz : y * 1000 < o.speed * (y * 1000 / o.speed + 1) := Nat.lt_mul_div_succ _ hs
    generalize y * 1000 / o.speed = z at hz hyz
    constructor
    · calc z * (o.ether * o.speed) = z * o.speed * o.ether := by ring
        _ ≤ y * 1000 * o.ether := Nat.mul_le_mul_right _ hz
        _ = y * o.ether * 1000 := by ring
        _ ≤ x * 1000 := Nat.mul_le_mul_right _ hyx
    · calc x * 1000 < o.ether * (y + 1) * 1000 := Nat.mul_lt_mul_of_pos_right hxy (by norm_num)
        _ = y * 1000 * o.ether + 1000 * o.ether := by ring
        _ ≤ o.speed * (z + 1) * o.ether + 1000 * o.ether :=
          Nat.add_le_add_right (Nat.mul_le_mul_right _ hyz.le) _
        _ = (z + 1) * (o.ether * o.speed) + 1000 * o.ether := by ring

/-- On a 10 Mb/s Ethernet no product overflows. -/
theorem transD_bounds (he : o.ether = 10000) (hs : 0 < o.speed) (hse : o.speed < 10000)
    (hb : bytes ≤ BUFSIZE) :
    transD o bytes * (10000 * o.speed) ≤ 8000 * bytes * (10000 - o.speed) ∧
      8000 * bytes * (10000 - o.speed) <
        (transD o bytes + 1) * (10000 * o.speed) + 1000 * 10000 := by
  have hbits : bytes * 8 * (o.ether - o.speed) < 2 ^ 32 := by
    have hle : bytes * 8 * (o.ether - o.speed) ≤ BUFSIZE * 8 * 10000 :=
      Nat.mul_le_mul (Nat.mul_le_mul_right 8 hb) (by omega)
    exact hle.trans_lt (by norm_num [BUFSIZE])
  have hprod : o.ether * o.speed < 2 ^ 32 := by
    rw [he]
    omega
  have := transD_bounds_of_lt hs (he ▸ hse) (by omega) hbits hprod
  rwa [he] at this

/-- On a 10 Mb/s Ethernet a packet departs no earlier than its delay after it has come and no
earlier than the packets before it are through, and later than that by the difference of the two
transmission times: never by more, and if that is below a second by less only to within the
rounding. -/
theorem calcDepTime_bounds (hn : now.Normal) (hp : prvIntervled.Normal) (hd : o.delay.Normal)
    (he : o.ether = 10000) (hs : 0 < o.speed) (hse : o.speed < 10000) (hb : bytes ≤ BUFSIZE) :
    ∃ late : ℕ, (calcDepTime o bytes now prvIntervled).1.micros =
        max prvIntervled.micros (now.micros + o.delay.micros) + late ∧
      late * (10000 * o.speed) ≤ 8000 * bytes * (10000 - o.speed) ∧
      (8000 * bytes * (10000 - o.speed) < 1000000 * (10000 * o.speed) →
        8000 * bytes * (10000 - o.speed) < (late + 1) * (10000 * o.speed) + 1000 * 10000) := by
  obtain ⟨hle, hlt⟩ := transD_bounds he hs hse hb
  refine ⟨_, (micros_calcDepTime hn hp hd).1, ?_, fun hsec => ?_⟩
  · split_ifs
    · exact (Nat.mul_le_mul_right _ (Nat.div_mul_le_self _ _)).trans hle
    · exact hle
  · have hpos : 0 < 10000 * o.speed := by omega
    have hbelow : transD o bytes < 1000000 := Nat.lt_of_mul_lt_mul_right (hle.trans_lt hsec)
    rwa [if_neg (not_le.2 hbelow)]

theorem calcDepTime_bounds_kilobyte : ∃ late : ℕ,
    (calcDepTime (initOptions 0) 1000 ⟨100, 0⟩ ⟨99, 0⟩).1.micros = 100000000 + late ∧
      late * 10000000 ≤ 72000000000 ∧ 72000000000 < (late + 1) * 10000000 + 10000000 := by
  have hn : Timeval.Normal ⟨100, 0⟩ := by decide
  have hp : Timeval.Normal ⟨99, 0⟩ := by decide
  have hb : 1000 ≤ BUFSIZE := by decide
  obtain ⟨late, hlate, hle, hlt⟩ := calcDepTime_bounds (o := initOptions 0) hn hp (by decide) rfl
    (by decide) (by decide) hb
  exact ⟨late, hlate, hle, hlt (by decide)⟩

end TcpLike
