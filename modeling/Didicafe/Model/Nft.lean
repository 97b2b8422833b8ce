/-
`firewall/nftables.rs` down to the text of its commands: every command is one argument of one process.
-/
import Didicafe.Model.Firewall
import Didicafe.Model.Config

namespace Didicafe

open Effect

structure FirewallConfig where
  nftPath : String
  tableName : String
  setName : String
deriving DecidableEq, Repr

/-- A name of the characters that the configuration admits. -/
def isNftName (name : String) : Bool := name ≠ "" && name.toList.all fun c => c.isAlphanum || c = '_'

/-- The firewall checks of `Config::validate`. -/
def FirewallConfig.validate (c : FirewallConfig) : Except Err Unit := do
  ensure (c.nftPath ≠ "") "firewall.nft_path must not be empty"
  ensure (isNftName c.tableName) "firewall.table_name must contain only alphanumeric characters and underscores"
  ensure (isNftName c.setName) "firewall.set_name must contain only alphanumeric characters and underscores"

/-! ## Processes -/

/-- A process: its program, and its only argument. -/
structure Command where
  path : String
  arg : String
deriving DecidableEq, Repr

/-- What is seen of a process that has ended. -/
structure Output where
  success : Bool
  stderr : String

abbrev Spawned : Command → Type := fun _ => Except Err Output

/-- Programs that start processes. -/
abbrev Shell := Fallible Err Command Spawned

/-- The commands run so far, when `answer` says how each process ends. -/
def shell (answer : Command → Except Err Output) : Handler Command Spawned (List Command) :=
  fun cmd ran => (answer cmd, ran ++ [cmd])

def spawn (cmd : Command) : Shell Output := ExceptT.mk (Prog.perform cmd)

/-- `run_nft` of a process that ended so. -/
def nftResult (cmd : Command) (output : Except Err Output) : Except Err Unit := do
  let output ← withContext s!"failed to execute: {cmd.path} {cmd.arg}" output
  if output.success then .ok () else .error (.anyhow s!"nft command failed: {output.stderr}")

/-! ## The controller -/

structure NftablesController where
  nftPath : String
  tableName : String
  setName : String

namespace NftablesController

def new (config : FirewallConfig) : NftablesController := ⟨config.nftPath, config.tableName, config.setName⟩

def runNft (self : NftablesController) (nftCmd : String) : Shell Unit :=
  ExceptT.mk ((spawn ⟨self.nftPath, nftCmd⟩).run >>= fun output => pure (nftResult ⟨self.nftPath, nftCmd⟩ output))

/-- The text of a command on an element of the set. -/
def text (self : NftablesController) : NftCmd → String
  | .addElement mac ip timeoutSecs =>
    let element := s!"{mac} . {ip} timeout {timeoutSecs}s"
    s!"add element inet {self.tableName} {self.setName} \x7b {element} \x7d"
  | .deleteElement mac ip => s!"delete element inet {self.tableName} {self.setName} \x7b {mac} . {ip} \x7d"

def authorizeClient (self : NftablesController) (mac ip : String) (timeoutSecs : Nat) : Shell Unit := do
  let _ ← ExceptT.mk (pure (withContext s!"refusing to authorize invalid MAC: {mac}" (validateMac mac)))
  let cmd := self.text (.addElement mac ip timeoutSecs)
  ExceptT.mk ((self.runNft cmd).run >>= fun r => pure (withContext s!"failed to authorize client {mac}/{ip}" r))

def deauthorizeClient (self : NftablesController) (mac ip : String) : Shell Unit := do
  let _ ← ExceptT.mk (pure (withContext s!"refusing to deauthorize invalid MAC: {mac}" (validateMac mac)))
  let cmd := self.text (.deleteElement mac ip)
  let _ ← ExceptT.lift (self.runNft cmd).run
  return ()

end NftablesController

end Didicafe
