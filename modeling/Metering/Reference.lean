/-!
# References

Collectors, suppliers, caches and registries are referred to by their place in the site that keeps
them.
-/

namespace Metering

structure CollectorId where
  index : Nat
  deriving DecidableEq, Repr

structure SupplierId where
  index : Nat
  deriving DecidableEq, Repr

structure CacheId where
  index : Nat
  deriving DecidableEq, Repr

structure RegistryId where
  index : Nat
  deriving DecidableEq, Repr

end Metering
