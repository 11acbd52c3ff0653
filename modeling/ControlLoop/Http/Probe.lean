import ControlLoop.Http.Basic
import ControlLoop.Metrics
/-!
# Endpoints for supervision

One endpoint tells whether the program is alive and ready, another shows its metrics.
-/
namespace ControlLoop.Http

/-- Answers on life and readiness. -/
def health (ready : Bool) : Router := fun r =>
  if r.method = "GET" ∧ r.path = "/healthz" then .text 200 "OK"
  else if r.method = "GET" ∧ r.path = "/readyz" then
    if ready then .text 200 "Ready" else .text 503 "Not Ready"
  else .notFound

/-- Shows the metrics; without a registry there are none. -/
def metrics (registry : Option Metrics.Registry) : Router := fun r =>
  if r.method = "GET" ∧ r.path = "/metrics" then
    ⟨200, "text/plain; version=0.0.4", (registry.map Metrics.Registry.text).getD ""⟩
  else .notFound

end ControlLoop.Http
