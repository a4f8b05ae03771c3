import MyS3.Error

/-!
# The retry loops

The loop that `upload_streamed_with_retries` and `upload_with_writer_with_retries`
each write out, over the outcomes that their attempts would have.
-/

namespace MyS3.Upload

/-- The loop after `retries` repetitions: the returned outcome and how many attempts
were made. Attempt `k` has outcome `attempt k`. -/
def retryLoop (attempt : Nat → Except S3Error Unit) (maxRetries retries : Nat) :
    Except S3Error Unit × Nat :=
  match attempt retries with
  | .ok () => (.ok (), retries + 1)
  | .error err =>
    if maxRetries ≤ retries ∨ err.isRetryable = false then (.error err, retries + 1)
    else retryLoop attempt maxRetries (retries + 1)
  termination_by maxRetries - retries

/-- `S3Client::upload_with_writer_with_retries`: every attempt runs the producer once. -/
def uploadWithWriterWithRetries (attempt : Nat → Except S3Error Unit) (maxRetries : Nat) :
    Except S3Error Unit × Nat :=
  retryLoop attempt maxRetries 0

/-- The attempt that is due is made. -/
theorem lt_retryLoop (attempt : Nat → Except S3Error Unit) (maxRetries retries : Nat) :
    retries < (retryLoop attempt maxRetries retries).2 := by
  induction retries using retryLoop.induct attempt maxRetries with
  | case1 retries hok =>
    unfold retryLoop
    simp [hok]
  | case2 retries e he hstop =>
    unfold retryLoop
    simp [he, hstop]
  | case3 retries e he hgo ih =>
    unfold retryLoop
    simp only [he, hgo, if_false]
    omega

/-- An attempt that fails for good is the last one, if the loop gets to it. -/
theorem retryLoop_stops {attempt : Nat → Except S3Error Unit} {maxRetries k : Nat} {err : S3Error}
    (hk : attempt k = .error err) (herr : err.isRetryable = false) {retries : Nat}
    (hle : retries ≤ k) (hreach : k < (retryLoop attempt maxRetries retries).2) :
    retryLoop attempt maxRetries retries = (.error err, k + 1) := by
  induction retries using retryLoop.induct attempt maxRetries with
  | case1 retries hok =>
    unfold retryLoop at hreach
    simp only [hok] at hreach
    have he : retries = k := by omega
    rw [he, hk] at hok
    cases hok
  | case2 retries e he hstop =>
    unfold retryLoop at hreach ⊢
    simp only [he, hstop, if_true] at hreach ⊢
    have hkr : retries = k := by omega
    rw [hkr, hk] at he
    cases he
    rw [hkr]
  | case3 retries e he hgo ih =>
    unfold retryLoop at hreach ⊢
    simp only [he, hgo, if_false] at hreach ⊢
    have hne : retries ≠ k := by
      rintro rfl
      rw [hk] at he
      cases he
      exact hgo (.inr herr)
    exact ih (by omega) hreach

end MyS3.Upload
