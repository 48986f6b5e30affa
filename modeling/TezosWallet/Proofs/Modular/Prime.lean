import Mathlib.NumberTheory.LucasPrimality

/-!
# Large primes

A number is prime if the nonzero residues modulo it are the powers of one of them. Whether they
are is decided by the primes that divide the predecessor of the number, which are large themselves,
so primes are proved in a chain. The primes that a chain begins with are small enough for trial
division.

## Main definitions

* `Modular.LucasStep` — the data that one number's proof takes.
* `Modular.chainOk` — whether a chain of such data, the most recent first, proves its numbers.
* `Modular.curveChain` — a chain for the moduli and the group orders of the curves in use.

## Main results

* `Modular.prime_of_chainOk` — the numbers of a chain are prime.
* `Modular.prime_of_mem_curveChain` — those of `Modular.curveChain` are.
-/

namespace TezosWallet.Modular

/-! ### Trial division -/

/-- Whether no number from `d` up to the square root of `n` divides `n`. -/
def noDivisorFrom (n : Nat) : (fuel d : Nat) → Bool
  | 0, _ => false
  | fuel + 1, d => n.blt (d * d) || (Nat.blt 0 (n % d) && noDivisorFrom n fuel (d + 1))

/-- Whether trial division shows that a number below a million is prime. -/
def isSmallPrime (n : Nat) : Bool := 2 ≤ n && noDivisorFrom n 1000 2

theorem not_dvd_of_noDivisorFrom {n fuel d : Nat} (h : noDivisorFrom n fuel d = true) {m : Nat}
    (hd : d ≤ m) (hm : m * m ≤ n) : ¬ m ∣ n := by
  induction fuel generalizing d with
  | zero => simp [noDivisorFrom] at h
  | succ fuel ih =>
    simp only [noDivisorFrom, Bool.or_eq_true, Bool.and_eq_true, Nat.blt_eq] at h
    rcases h with hlarge | ⟨hrem, hrest⟩
    · exact absurd (Nat.mul_le_mul hd hd) (by omega)
    · rcases Nat.eq_or_lt_of_le hd with rfl | hlt
      · exact fun hdvd => hrem.ne' (Nat.mod_eq_zero_of_dvd hdvd)
      · exact ih hrest hlt

theorem prime_of_isSmallPrime {n : Nat} (h : isSmallPrime n = true) : n.Prime := by
  simp only [isSmallPrime, Bool.and_eq_true, decide_eq_true_eq] at h
  refine Nat.prime_def_le_sqrt.mpr ⟨h.1, fun m hm hsqrt => ?_⟩
  exact not_dvd_of_noDivisorFrom h.2 hm (Nat.le_sqrt.mp hsqrt)

/-! ### Powers -/

/-- The power of `a` modulo `m` with an exponent of at most `count` bytes, a byte at a time. -/
def bytewisePow (m a : Nat) : (count e : Nat) → Nat
  | 0, _ => 1 % m
  | count + 1, e => bytewisePow m a count (e / 256) ^ 256 * a ^ (e % 256) % m

theorem cast_bytewisePow {m a count e : Nat} (he : e < 256 ^ count) :
    (bytewisePow m a count e : ZMod m) = (a : ZMod m) ^ e := by
  induction count generalizing e with
  | zero =>
    obtain rfl : e = 0 := by omega
    rw [bytewisePow, ZMod.natCast_mod, Nat.cast_one, pow_zero]
  | succ count ih =>
    have hhigh : e / 256 < 256 ^ count := Nat.div_lt_of_lt_mul (by rwa [← Nat.pow_succ'])
    rw [bytewisePow, ZMod.natCast_mod, Nat.cast_mul, Nat.cast_pow, Nat.cast_pow, ih hhigh,
      ← pow_mul, ← pow_add, Nat.div_add_mod']

theorem bytewisePow_mod (m a count e : Nat) :
    bytewisePow m a count e % m = bytewisePow m a count e := by
  cases count <;> exact Nat.mod_mod _ _

/-! ### Chains of primes -/

/-- What proves that a number is prime. -/
structure LucasStep where
  /-- The number. -/
  number : Nat
  /-- A residue whose powers are all nonzero residues. -/
  generator : Nat
  /-- Primes whose product is the predecessor of the number. -/
  factors : List Nat

namespace LucasStep

variable (step : LucasStep)

/-- A power of the generator. -/
def power (e : Nat) : Nat := bytewisePow step.number step.generator (e.log2 / 8 + 1) e

/-- Whether the generator has the order that the step says it has, if the factors are prime. -/
def generates : Bool :=
  step.power (step.number - 1) == 1 &&
    step.factors.all fun q => step.power ((step.number - 1) / q) != 1

theorem cast_power (e : Nat) : (step.power e : ZMod step.number) = step.generator ^ e := by
  refine cast_bytewisePow (Nat.lt_log2_self.trans_le ?_)
  rw [show 256 = 2 ^ 8 from rfl, ← Nat.pow_mul]
  exact Nat.pow_le_pow_right two_pos (by omega)

theorem prime (hnumber : 1 < step.number) (hprod : step.factors.prod = step.number - 1)
    (hprime : ∀ q ∈ step.factors, q.Prime) (h : step.generates = true) : step.number.Prime := by
  simp only [generates, Bool.and_eq_true, beq_iff_eq, List.all_eq_true, bne_iff_ne, ne_eq] at h
  refine lucas_primality _ (step.generator : ZMod step.number) ?_ fun q hq hdvd => ?_
  · rw [← cast_power, h.1, Nat.cast_one]
  · obtain ⟨r, hr, hqr⟩ := (Prime.dvd_prod_iff hq.prime).mp (hprod ▸ hdvd)
    obtain rfl : q = r := (Nat.prime_dvd_prime_iff_eq hq (hprime r hr)).mp hqr
    rw [← cast_power]
    intro hone
    -- Powers are reduced, so one that has the residue of one is one.
    have hreduced : step.power ((step.number - 1) / q) = 1 % step.number := by
      rw [power, ← bytewisePow_mod]
      exact (ZMod.natCast_eq_natCast_iff' _ _ _).mp (hone.trans Nat.cast_one.symm)
    rw [Nat.mod_eq_of_lt hnumber] at hreduced
    exact h.2 q hr hreduced

end LucasStep

/-- Whether a chain, the most recent step first, proves its numbers to be prime. -/
def chainOk : List LucasStep → Bool
  | [] => true
  | step :: earlier =>
    chainOk earlier && decide (1 < step.number) && step.factors.prod == step.number - 1 &&
      step.factors.all (fun q => earlier.any (·.number == q) || isSmallPrime q) && step.generates

theorem prime_of_chainOk {chain : List LucasStep} (h : chainOk chain = true) :
    ∀ step ∈ chain, step.number.Prime := by
  induction chain with
  | nil => simp
  | cons step earlier ih =>
    simp only [chainOk, Bool.and_eq_true, decide_eq_true_eq, beq_iff_eq, List.all_eq_true,
      Bool.or_eq_true, List.any_eq_true] at h
    obtain ⟨⟨⟨⟨hearlier, hnumber⟩, hprod⟩, hfactors⟩, hgenerates⟩ := h
    rw [List.forall_mem_cons]
    refine ⟨step.prime hnumber hprod (fun q hq => ?_) hgenerates, ih hearlier⟩
    rcases hfactors q hq with ⟨other, hother, rfl⟩ | hsmall
    · exact ih hearlier other hother
    · exact prime_of_isSmallPrime hsmall

/-! ### The primes of the curves -/

/-- A chain for the moduli and the group orders of the curves in use. -/
def curveChain : List LucasStep := [
  ⟨115792089210356248762697446949407573529996955224135760342422259061068512044369, 7, [2, 2, 2,
    2, 3, 71, 131, 373, 3407, 17449, 38189, 187019741, 622491383, 1002328039319,
    2624747550333869278416773953]⟩,
  ⟨2624747550333869278416773953, 7, [2, 2, 2, 2, 2, 2, 3, 3, 1297, 16879, 208150935158385979]⟩,
  ⟨208150935158385979, 2, [2, 3, 11, 43, 127, 3023, 191039911]⟩,
  ⟨191039911, 3, [2, 3, 5, 41, 155317]⟩,
  ⟨1002328039319, 19, [2, 126241, 3969899]⟩,
  ⟨3969899, 2, [2, 19, 104471]⟩,
  ⟨622491383, 5, [2, 311245691]⟩,
  ⟨311245691, 2, [2, 5, 7, 17, 29, 29, 311]⟩,
  ⟨187019741, 2, [2, 2, 5, 9350987]⟩,
  ⟨9350987, 2, [2, 17, 229, 1201]⟩,
  ⟨115792089210356248762697446949407573530086143415290314195533631308867097853951, 6, [2, 3, 5,
    5, 17, 257, 641, 1531, 65537, 490463, 6700417,
    835945042244614951780389953367877943453916927241]⟩,
  ⟨835945042244614951780389953367877943453916927241, 11, [2, 2, 2, 3, 3, 3, 5,
    774023187263532362759620327192479577272145303]⟩,
  ⟨774023187263532362759620327192479577272145303, 3, [2, 3, 3, 2411, 34282281433, 11290956913871,
    46076956964474543]⟩,
  ⟨46076956964474543, 5, [2, 23, 18169, 78283, 704251]⟩,
  ⟨11290956913871, 13, [2, 5, 17, 66417393611]⟩,
  ⟨66417393611, 6, [2, 5, 53, 173, 197, 3677]⟩,
  ⟨34282281433, 17, [2, 2, 2, 3, 7, 204061199]⟩,
  ⟨204061199, 11, [2, 11, 23, 107, 3769]⟩,
  ⟨6700417, 5, [2, 2, 2, 2, 2, 2, 2, 3, 17449]⟩,
  ⟨115792089237316195423570985008687907852837564279074904382605163141518161494337, 7, [2, 2, 2,
    2, 2, 2, 3, 149, 631, 107361793816595537, 174723607534414371449,
    341948486974166000522343609283189]⟩,
  ⟨341948486974166000522343609283189, 2, [2, 2, 3, 3, 3, 109, 29047611873442575647497758179]⟩,
  ⟨29047611873442575647497758179, 2, [2, 293, 305873, 545358713, 297159362677]⟩,
  ⟨297159362677, 2, [2, 2, 3, 3, 11, 461, 1627771]⟩,
  ⟨1627771, 3, [2, 3, 5, 29, 1871]⟩,
  ⟨545358713, 5, [2, 2, 2, 41, 59, 28181]⟩,
  ⟨174723607534414371449, 3, [2, 2, 2, 17, 59, 4051, 120233, 44706919]⟩,
  ⟨44706919, 6, [2, 3, 797, 9349]⟩,
  ⟨107361793816595537, 3, [2, 2, 2, 2, 16699, 85831, 4681609]⟩,
  ⟨4681609, 23, [2, 2, 2, 3, 97, 2011]⟩,
  ⟨115792089237316195423570985008687907853269984665640564039457584007908834671663, 3, [2, 3, 7,
    13441, 205115282021455665897114700593932402728804164701536103180137503955397371]⟩,
  ⟨205115282021455665897114700593932402728804164701536103180137503955397371, 10, [2, 3, 5, 29,
    29, 31, 7723, 132896956044521568488119, 255515944373312847190720520512484175977]⟩,
  ⟨255515944373312847190720520512484175977, 3, [2, 2, 2, 7, 7, 11, 1627, 2657, 4423, 41201,
    96557, 7240687, 107590001]⟩,
  ⟨107590001, 3, [2, 2, 2, 2, 5, 5, 5, 5, 7, 29, 53]⟩,
  ⟨7240687, 3, [2, 3, 1206781]⟩,
  ⟨1206781, 10, [2, 2, 3, 5, 20113]⟩,
  ⟨132896956044521568488119, 6, [2, 3, 22149492674086928081353]⟩,
  ⟨22149492674086928081353, 5, [2, 2, 2, 3, 5323, 173378833005251801]⟩,
  ⟨173378833005251801, 6, [2, 2, 2, 5, 5, 2621, 24809, 13331831]⟩,
  ⟨13331831, 13, [2, 5, 971, 1373]⟩,
  ⟨7237005577332262213973186563042994240857116359379907606001950938285454250989, 2, [2, 2, 3, 11,
    198211423230930754013084525763697, 276602624281642239937218680557139826668747]⟩,
  ⟨276602624281642239937218680557139826668747, 2, [2, 7,
    19757330305831588566944191468367130476339]⟩,
  ⟨19757330305831588566944191468367130476339, 2, [2, 269, 213441916511,
    172054593956031949258510691]⟩,
  ⟨172054593956031949258510691, 2, [2, 5, 1361, 2851, 4434155615661930479]⟩,
  ⟨4434155615661930479, 17, [2, 41, 43, 1257559732178653]⟩,
  ⟨1257559732178653, 2, [2, 2, 3, 7, 23, 531581, 1224481]⟩,
  ⟨1224481, 13, [2, 2, 2, 2, 2, 3, 5, 2551]⟩,
  ⟨213441916511, 13, [2, 5, 73, 292386187]⟩,
  ⟨292386187, 2, [2, 3, 3, 3, 3, 307, 5879]⟩,
  ⟨198211423230930754013084525763697, 5, [2, 2, 2, 2, 3, 23, 58964693, 3044861653679985063343]⟩,
  ⟨3044861653679985063343, 5, [2, 3, 11, 30703, 82163, 132667, 137849]⟩,
  ⟨58964693, 2, [2, 2, 14741173]⟩,
  ⟨14741173, 2, [2, 2, 3, 3, 409477]⟩,
  ⟨57896044618658097711785492504343953926634992332820282019728792003956564819949, 2, [2, 2, 3,
    65147, 74058212732561358302231226437062788676166966415465897661863160754340907]⟩,
  ⟨74058212732561358302231226437062788676166966415465897661863160754340907, 2, [2, 3, 353, 57467,
    132049, 1923133, 31757755568855353, 75445702479781427272750846543864801]⟩,
  ⟨75445702479781427272750846543864801, 7, [2, 2, 2, 2, 2, 3, 3, 5, 5, 75707, 72106336199,
    1919519569386763]⟩,
  ⟨1919519569386763, 2, [2, 3, 7, 19, 47, 47, 127, 8574133]⟩,
  ⟨8574133, 2, [2, 2, 3, 7, 103, 991]⟩,
  ⟨72106336199, 7, [2, 13, 2773320623]⟩,
  ⟨2773320623, 5, [2, 2437, 569003]⟩,
  ⟨31757755568855353, 10, [2, 2, 2, 3, 31, 107, 223, 4153, 430751]⟩,
  ⟨1923133, 2, [2, 2, 3, 43, 3727]⟩]

theorem prime_of_mem_curveChain {n : Nat} (h : curveChain.any (·.number == n) = true) :
    n.Prime := by
  obtain ⟨step, hmem, hn⟩ := List.any_eq_true.mp h
  have hchain : chainOk curveChain = true := by decide +kernel
  exact beq_iff_eq.mp hn ▸ prime_of_chainOk hchain step hmem

end TezosWallet.Modular
