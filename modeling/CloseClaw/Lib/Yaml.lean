/- YAML values, as `serde_yaml::Value` reads and compares them. -/

namespace CloseClaw.Lib

inductive Yaml where
  | null
  | bool (b : Bool)
  | num (literal : String)
  | str (s : String)
  | seq (items : List Yaml)
  | mapping (entries : List (Yaml × Yaml))
  | tagged (tag : String) (value : Yaml)

namespace Yaml

def untag : Yaml → Yaml
  | .tagged _ value => untag value
  | v => v

def asMapping (v : Yaml) : Option (List (Yaml × Yaml)) :=
  match v.untag with
  | .mapping entries => some entries
  | _ => none

def asStr (v : Yaml) : Option String :=
  match v.untag with
  | .str s => some s
  | _ => none

def isBool (v : Yaml) : Bool :=
  match v.untag with
  | .bool _ => true
  | _ => false

mutual

def beq : Yaml → Yaml → Bool
  | .null, .null => true
  | .bool a, .bool b => a == b
  | .num a, .num b => a == b
  | .str a, .str b => a == b
  | .seq as, .seq bs => beqItems as bs
  | .mapping as, .mapping bs => as.length == bs.length && foundIn as bs
  | .tagged s a, .tagged t b => s == t && beq a b
  | _, _ => false

def beqItems : List Yaml → List Yaml → Bool
  | [], [] => true
  | a :: as, b :: bs => beq a b && beqItems as bs
  | _, _ => false

def foundIn : List (Yaml × Yaml) → List (Yaml × Yaml) → Bool
  | [], _ => true
  | (k, v) :: as, bs => bs.any (fun kv => beq k kv.1 && beq v kv.2) && foundIn as bs

end

instance instBEq : BEq Yaml := ⟨beq⟩

end Yaml

end CloseClaw.Lib
