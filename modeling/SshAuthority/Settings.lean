/-
SshAuthority/Settings.lean

Settings of the service and of the server that runs it, from environment
variables.

Variables that are not set have defaults. Numbers are read when the settings are
read; whether the settings make sense is checked afterwards, by `Settings.check`.
-/
import SshAuthority.Failure
import SshAuthority.Number.RealText

namespace SshAuthority

/-- Environment variables, by name. -/
abbrev Environment := Table Text

/-- The value of a variable, or a default. -/
def Environment.value (env : Environment) (name fallback : Text) : Text :=
  (Table.get? name env).getD fallback

/-- The settings of the service. -/
structure Settings where
  host : Text
  port : Int
  configPath : Text
  /-- The command forced on every certificate. -/
  forceCommand : Text
  /-- How many seconds to wait for an authorization service. -/
  timeout : Real64
  rateLimit : Text
  logLevel : Text
  logFormat : Text

namespace Settings

/-- The settings that the variables make. -/
def ofEnvironment (env : Environment) : Except ConfigFault Settings := do
  let port ← (Decimal.read (env.value "OINIT_CA_PORT" "8080")).mapError .badPort
  let timeoutText := env.value "OINIT_CA_UPSTREAM_TIMEOUT" "10"
  let timeout ← match Real64.read? timeoutText with
    | some x => .ok x
    | none => .error (.badTimeout timeoutText)
  return {
    host := env.value "OINIT_CA_HOST" "127.0.0.1"
    port
    configPath := env.value "OINIT_CA_CONFIG" "/etc/oinit-ca/config.ini"
    forceCommand := env.value "OINIT_CA_FORCE_COMMAND" "oinit-switch"
    timeout
    rateLimit := env.value "OINIT_CA_RATE_LIMIT" "30/minute"
    logLevel := env.value "LOG_LEVEL" "INFO"
    logFormat := env.value "LOG_FORMAT" "json" }

/-- Refuses a blank command, and then a timeout that is at most zero. -/
def check (s : Settings) : Except ConfigFault Unit :=
  if s.forceCommand.isBlank then .error .blankCommand
  else if s.timeout.isNonPositive then .error .shortTimeout
  else .ok ()

end Settings

/-- The variables of the server that runs the service, by name. Only the address and
the number of workers can be set. -/
def serverVariables (env : Environment) : Except Decimal.Fault (Table Text) := do
  let workers ← Decimal.read (env.value "GUNICORN_WORKERS" "2")
  return [
    ("bind", env.value "GUNICORN_BIND" "127.0.0.1:8080"),
    ("workers", Decimal.ofInt workers),
    ("worker_class", "uvicorn.workers.UvicornWorker"),
    ("timeout", "30"), ("keepalive", "5"), ("accesslog", "-"), ("errorlog", "-"),
    ("loglevel", "info")]

end SshAuthority
