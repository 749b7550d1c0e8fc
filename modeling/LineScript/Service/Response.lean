import LineScript.Script
import LineScript.Service.Setting

/-!
# Requests and responses

The service runs a script on request, under the server's limits and those of the request. Which
requests reach it, and what they carry then, is decided by the front end before it, a parameter
here: it answers by itself, or it calls one of the two operations of the service.
-/

namespace LineScript

/-- A request to run a script. Both parts may be missing. -/
structure RunRequest where
  code : Option Text
  /-- The fields of the settings, in order. -/
  settings : Option (List (Text × Datum))

/-- What the front end asks of the service. -/
inductive Call
  /-- To run a script; what the request carries may be missing altogether. -/
  | run (request : Option RunRequest)
  | health

inductive Response
  | ran (r : Report)
  | noCode
  | failed (message : Text)
  | healthy

namespace Response

def status : Response → Nat
  | .ran _ | .healthy => 200
  | .noCode => 400
  | .failed _ => 500

end Response

namespace Service

/-- The script that a request carries, unless it is missing or empty. -/
def code? (request : Option RunRequest) : Option Text :=
  (request.bind RunRequest.code).filter fun code => !code.isEmpty

/-- The settings that a request carries. -/
def settings (request : Option RunRequest) : List (Text × Datum) :=
  (request.bind RunRequest.settings).getD []

variable [Host]

/-- Runs a script under the server's limits and those of the settings. -/
def runCode (server : Limits) (clock : Double) (settings : List (Text × Datum)) (code : Text) :
    Response :=
  match server.capped settings with
  | .error refusal => .failed refusal.message
  | .ok limits =>
    match Script.run limits clock code with
    | .ok report => .ran report
    | .error e => .failed e.message

/-- Answers a request to run. -/
def run (server : Limits) (clock : Double) (request : Option RunRequest) : Response :=
  match code? request with
  | some code => runCode server clock (settings request) code
  | none => .noCode

/-- Answers a request: `front` calls the service for it, or has an answer of its own. -/
def respond {Request Answer : Type} (front : Request → Except Answer Call) (server : Limits)
    (clock : Double) (request : Request) : Except Answer Response := do
  match ← front request with
  | .run carried => return run server clock carried
  | .health => return .healthy

end Service

end LineScript
