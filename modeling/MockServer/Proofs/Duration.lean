/-
  MockServer.Proofs.Duration — lengths of time in whole units.

  A length that was read in whole seconds or milliseconds is written as
  the same number of them.  Any other is cut to whole milliseconds when
  it is written, and cutting it again changes nothing.

  Main definitions:
    * `Duration.truncated` — a length cut to whole milliseconds;
    * `Duration.Fits` — a length that can be written.
-/
import MockServer.Duration

namespace MockServer

namespace Duration

/-- A length of time without what is below a millisecond. -/
def truncated (d : Duration) : Duration := ofMillis d.millis

/-- Does the number of milliseconds fit 64 bits? -/
def Fits (d : Duration) : Prop := d.millis < UInt64.size

instance (d : Duration) : Decidable d.Fits := inferInstanceAs (Decidable (_ < _))

theorem seconds_ofSeconds (n : Nat) : (ofSeconds n).seconds = n :=
  Nat.mul_div_cancel_left n (by decide)

theorem millis_ofMillis (n : Nat) : (ofMillis n).millis = n :=
  Nat.mul_div_cancel_left n (by decide)

@[simp] theorem millis_truncated (d : Duration) : d.truncated.millis = d.millis :=
  millis_ofMillis d.millis

@[simp] theorem truncated_truncated (d : Duration) : d.truncated.truncated = d.truncated := by
  unfold truncated
  rw [millis_ofMillis]

theorem fits_truncated {d : Duration} (h : d.Fits) : d.truncated.Fits := by
  unfold Fits
  rwa [millis_truncated]

end Duration

end MockServer
