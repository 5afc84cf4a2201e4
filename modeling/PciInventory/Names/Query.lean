import PciInventory.Names.Resolver

/-!
# Runs of lookups

A query asks a resolver for one name, or for the names of a class.  Queries are
answered one after the other, each by the resolver that the one before left
behind.
-/

namespace PciInventory.Names

inductive Query where
  | vendor (vendor : UInt16)
  | device (vendor device : UInt16)
  | subsystem (vendor device subsystemVendor subsystemDevice : UInt16)
  | deviceClass (code : Nat)
deriving DecidableEq

inductive Answer where
  | name (text : String)
  | classNames (names : ClassNames)
deriving DecidableEq

namespace Resolver

def ask (resolver : Resolver) : Query → Answer × Resolver
  | .vendor vendor =>
      let found := resolver.vendorName vendor
      (.name found.1, found.2)
  | .device vendor device =>
      let found := resolver.deviceName vendor device
      (.name found.1, found.2)
  | .subsystem vendor device subsystemVendor subsystemDevice =>
      (.name (resolver.subsystemName vendor device subsystemVendor
        subsystemDevice), resolver)
  | .deviceClass code =>
      let found := resolver.classNames code
      (.classNames found.1, found.2)

def askAll (resolver : Resolver) : List Query → List Answer × Resolver
  | [] => ([], resolver)
  | query :: rest =>
      let first := resolver.ask query
      let others := first.2.askAll rest
      (first.1 :: others.1, others.2)

@[simp] theorem askAll_nil (resolver : Resolver) :
    resolver.askAll [] = ([], resolver) := rfl

@[simp] theorem askAll_cons (resolver : Resolver) (query : Query)
    (rest : List Query) :
    resolver.askAll (query :: rest) =
      ((resolver.ask query).1 :: ((resolver.ask query).2.askAll rest).1,
        ((resolver.ask query).2.askAll rest).2) := rfl

end Resolver

end PciInventory.Names
