import GraphWeave.Server.Handler
import GraphWeave.Document.Parser
import Mathlib

/-!
The body limit of POST requests. A POST body is refused for its length, with status 413, exactly
when it is JSON (or untyped) and longer than a positive limit; a body the limit admits is answered
as if there were no limit (`post_body_limit`).
-/

namespace GraphWeave.Server

variable {σ : Type}

theorem readLimit_of_lt {m : Int} (nonneg : 0 ≤ m) (below : m < Int.pow 2 63 - 1) :
    readLimit m = m + 1 := by
  have half : Int.pow 2 63 = 9223372036854775808 := by decide
  have whole : Nat.pow 2 64 = 18446744073709551616 := by decide
  unfold readLimit
  apply Int.bmod_eq_of_le_mul_two <;> push_cast [whole] <;> omega

theorem readLimit_top : readLimit (Int.pow 2 63 - 1) = -Int.pow 2 63 :=
  Int.bmod_eq_neg (by decide) (by decide)

theorem readBody_zero (body : String) : readBody body 0 = body := by
  simp [readBody]

theorem readBody_of_lt (body : String) {m : Int} (nonneg : 0 ≤ m) (below : m < Int.pow 2 63 - 1) :
    readBody body m = body := by
  simp [readBody, readLimit_of_lt nonneg below]
  omega

theorem readBody_top (body : String) : readBody body (Int.pow 2 63 - 1) = "" := by
  rw [readBody, readLimit_top]
  rfl

theorem bodyPayload_small {body : String} {e : Rejection} (h : bodyPayload body = .error e) :
    e.tooLarge = false := by
  unfold bodyPayload at h
  dsimp only at h
  repeat' split at h
  all_goals (cases h <;> rfl)

/-- Below the largest limit the body is read whole, and refused for its length exactly when a
JSON body is longer than a positive limit. -/
theorem fromBody_tooLarge_iff (r : Http.Request) {m : Int} (nonneg : 0 ≤ m)
    (below : m < Int.pow 2 63 - 1) :
    fromBody r m = .error ⟨"body too large", true⟩ ↔
      acceptsContentType (r.header "Content-Type") = true ∧ 0 < m ∧
        m < (r.body.getD "").utf8ByteSize := by
  unfold fromBody
  rw [readBody_of_lt _ nonneg below]
  by_cases accepted : acceptsContentType (r.header "Content-Type") = true
  · by_cases longer : 0 < m ∧ m < (r.body.getD "").utf8ByteSize
    · simp [accepted, longer]
    · have within : (decide (m > 0) && decide (((r.body.getD "").utf8ByteSize : Int) > m)) = false := by
        simpa using longer
      simp only [accepted, Bool.not_true, Bool.false_eq_true, if_false, within, longer, and_false,
        iff_false]
      intro read
      simpa using bodyPayload_small read
  · simp [accepted]

theorem fromBody_eq_unlimited (r : Http.Request) {m : Int} (nonneg : 0 ≤ m)
    (below : m < Int.pow 2 63 - 1) (fits : ¬ (0 < m ∧ m < (r.body.getD "").utf8ByteSize)) :
    fromBody r m = fromBody r 0 := by
  unfold fromBody
  rw [readBody_of_lt _ nonneg below, readBody_zero]
  have within : (decide (m > 0) && decide (((r.body.getD "").utf8ByteSize : Int) > m)) = false := by
    simpa using fits
  simp [within]

theorem fromBody_top (r : Http.Request) :
    fromBody r (Int.pow 2 63 - 1) = fromBody { r with body := some "" } 0 := by
  unfold fromBody
  rw [readBody_top, readBody_zero]
  rfl

theorem fromBody_rejection {r : Http.Request} {m : Int} {e : Rejection}
    (h : fromBody r m = .error e) (large : e.tooLarge = true) : e = ⟨"body too large", true⟩ := by
  unfold fromBody at h
  split at h
  · cases h
    cases large
  · dsimp only at h
    split at h
    · cases h
      rfl
    · rw [bodyPayload_small h] at large
      cases large

theorem payloadOf_post {r : Http.Request} (post : r.method = "POST") (m : Int) :
    payloadOf r m = fromBody r m := by
  simp [payloadOf, post]

/-- A POST request is answered 413 when it is refused for its length, 400 when it is refused
for another reason, and 200 when it holds requests. -/
theorem respond_status (parse : DocumentParser) (lookup : OperationLookup) (s : ExecutableSchema σ) (opts : Options)
    {r : Http.Request} (post : r.method = "POST") (rid : String) (base : Http.Response)
    (st : State σ) :
    ((respond parse lookup s opts r rid base).run st).1.status =
      match payloadOf r opts.maxBodyBytes with
      | .error e => if e.tooLarge then 413 else 400
      | .ok _ => 200 := by
  unfold respond
  simp only [post]
  cases payloadOf r opts.maxBodyBytes with
  | error e => rfl
  | ok p =>
    cases p with
    | batch reqs => rfl
    | single req => rfl

/-- A POST request is answered 413 exactly when its body is refused for its length. -/
theorem respond_status_413_iff (parse : DocumentParser) (lookup : OperationLookup) (s : ExecutableSchema σ)
    (opts : Options) {r : Http.Request} (post : r.method = "POST") (rid : String)
    (base : Http.Response) (st : State σ) :
    ((respond parse lookup s opts r rid base).run st).1.status = 413 ↔
      payloadOf r opts.maxBodyBytes = .error ⟨"body too large", true⟩ := by
  rw [respond_status parse lookup s opts post rid base st, payloadOf_post post]
  cases read : fromBody r opts.maxBodyBytes with
  | error e =>
    by_cases large : e.tooLarge = true
    · simp [fromBody_rejection read large]
    · simp only [large, Bool.false_eq_true, if_false, Except.error.injEq]
      constructor
      · intro h
        cases h
      · rintro rfl
        simp at large
  | ok p => simp

theorem respond_of_payloadOf (parse : DocumentParser) (lookup : OperationLookup) (s : ExecutableSchema σ) (opts : Options)
    (r : Http.Request) (m : Int) (body : Option String) (rid : String) (base : Http.Response)
    (same : payloadOf r opts.maxBodyBytes = payloadOf { r with body } m) :
    respond parse lookup s opts r rid base =
      respond parse lookup s { opts with maxBodyBytes := m } { r with body } rid base := by
  unfold respond
  rw [same]
  rfl

/-- The body limit of POST requests. Below the largest 64-bit limit, a POST request is refused
for its length, and answered 413, exactly when its body is JSON (or untyped) and longer than a
positive limit; otherwise it is answered exactly as with no limit. At the largest limit,
`2 ^ 63 - 1`, the reader's limit wraps and nothing is read: the request is answered as one with
an empty body and no limit. -/
theorem post_body_limit (parse : DocumentParser) (lookup : OperationLookup) (s : ExecutableSchema σ) (opts : Options)
    {r : Http.Request} (post : r.method = "POST") (nonneg : 0 ≤ opts.maxBodyBytes) (rid : String)
    (base : Http.Response) :
    let m := opts.maxBodyBytes
    let longer := acceptsContentType (r.header "Content-Type") = true ∧ 0 < m ∧
      m < (r.body.getD "").utf8ByteSize
    (m < Int.pow 2 63 - 1 →
      (payloadOf r m = .error ⟨"body too large", true⟩ ↔ longer) ∧
      (∀ st : State σ, ((respond parse lookup s opts r rid base).run st).1.status = 413 ↔ longer) ∧
      (¬ (0 < m ∧ m < (r.body.getD "").utf8ByteSize) →
        respond parse lookup s opts r rid base =
          respond parse lookup s { opts with maxBodyBytes := 0 } r rid base)) ∧
    (m = Int.pow 2 63 - 1 →
      respond parse lookup s opts r rid base =
        respond parse lookup s { opts with maxBodyBytes := 0 } { r with body := some "" } rid base) := by
  intro m longer
  refine ⟨fun below => ?_, fun top => ?_⟩
  · have refused : payloadOf r m = .error ⟨"body too large", true⟩ ↔ longer := by
      rw [payloadOf_post post]
      exact fromBody_tooLarge_iff r nonneg below
    refine ⟨refused, fun st => ?_, fun fits => ?_⟩
    · rw [respond_status_413_iff parse lookup s opts post rid base st]
      exact refused
    · refine respond_of_payloadOf parse lookup s opts r 0 r.body rid base ?_
      rw [payloadOf_post post, payloadOf_post post]
      exact fromBody_eq_unlimited r nonneg below fits
  · refine respond_of_payloadOf parse lookup s opts r 0 (some "") rid base ?_
    have largest : opts.maxBodyBytes = Int.pow 2 63 - 1 := top
    rw [payloadOf_post post, payloadOf_post (r := { r with body := some "" }) post, largest]
    exact fromBody_top r

/-- A POST request with a limit of four bytes. -/
theorem four_byte_body_limit :
    let r : Http.Request := { method := "POST", path := "/graphql", body := some "\x7b\x7d" }
    let opts : Options := { maxBodyBytes := 4 }
    let s : ExecutableSchema Unit := ⟨{}, [], []⟩
    (r.method = "POST" ∧ 0 ≤ opts.maxBodyBytes) ∧
      let m := opts.maxBodyBytes
      let longer := acceptsContentType (r.header "Content-Type") = true ∧ 0 < m ∧
        m < (r.body.getD "").utf8ByteSize
      (m < Int.pow 2 63 - 1 →
        (payloadOf r m = .error ⟨"body too large", true⟩ ↔ longer) ∧
        (∀ st : State Unit,
          ((respond Document.parse OperationLookup.standard s opts r "" { status := 200 }).run st).1.status = 413 ↔
            longer) ∧
        (¬ (0 < m ∧ m < (r.body.getD "").utf8ByteSize) →
          respond Document.parse OperationLookup.standard s opts r "" { status := 200 } =
            respond Document.parse OperationLookup.standard s { opts with maxBodyBytes := 0 } r "" { status := 200 })) ∧
      (m = Int.pow 2 63 - 1 →
        respond Document.parse OperationLookup.standard s opts r "" { status := 200 } =
          respond Document.parse OperationLookup.standard s { opts with maxBodyBytes := 0 } { r with body := some "" } ""
            { status := 200 }) :=
  ⟨⟨rfl, by decide⟩, post_body_limit Document.parse OperationLookup.standard ⟨{}, [], []⟩ { maxBodyBytes := 4 } rfl
    (by decide) "" { status := 200 }⟩

theorem fromBody_unlimited {r : Http.Request}
    (accepted : acceptsContentType (r.header "Content-Type") = true) :
    fromBody r 0 = bodyPayload (r.body.getD "") := by
  simp [fromBody, accepted, readBody_zero]

/-- At the largest limit the body `[]`, which with no limit is refused as an empty batch, is
refused as invalid JSON: nothing of it was read. -/
theorem largest_limit_reads_nothing :
    let r : Http.Request := { method := "POST", path := "/graphql", body := some "[]" }
    payloadOf r (Int.pow 2 63 - 1) = .error ⟨"invalid JSON", false⟩ ∧
      payloadOf r 0 = .error ⟨"empty batch", false⟩ := by
  intro r
  have accepted : acceptsContentType (r.header "Content-Type") = true := by cbv
  rw [payloadOf_post rfl, payloadOf_post rfl, fromBody_top, fromBody_unlimited accepted,
    fromBody_unlimited (r := { r with body := some "" }) accepted]
  exact ⟨by cbv, by cbv⟩

end GraphWeave.Server
