import DynLinker.Debug.LinkMaps
import DynLinker.Loader.ElfLoader

/-! The images behind the modules, as far as the debugger sees them. While the ELF loader
crate loads, it calls the linker's observer for every image it has mapped, and the
observer puts the image's link map on the debugger's list (`dlopen/observer.rs`). Whoever
drops an image drops its user data, and with it the link map. -/

set_option autoImplicit false

namespace DynLinker.Loader

open Debug ElfLoader

structure LoadedImage where
  base : Nat
  linkMap : LinkMapAddress
deriving DecidableEq

/-- The link map that `on_after_dynamic_load` builds. -/
def LoadedImage.contents (image : LoadedImage) : LinkMap where
  lAddr := image.base
  lNext := none
  lPrev := none
  lReal := some image.linkMap

/-- `rawMaps` and `pendingMaps` are the link maps of the images that a loaded object and a
load in progress own. The other three are the images that an operation maps, in order,
whether it then succeeds or not. -/
class ImageLoader (Ctx : Type) [ElfLoader Ctx] where
  rawMaps : Raw Ctx → List LinkMapAddress
  pendingMaps : Pending Ctx → List LinkMapAddress
  dylibImages : String → List UInt8 → List LoadedImage
  loadImages : Ctx → Option ModuleId → String → List LoadedImage
  mappedImages : Ctx → Option ModuleId → String → Raw Ctx → List LoadedImage

open ImageLoader in
/-- What a load owns was mapped for it or handed to it, relocation keeps it, and the
published modules are those images: new instances with their link maps. -/
class LawfulImageLoader (Ctx : Type) [ElfLoader Ctx] [ImageLoader Ctx] : Prop where
  loadDylib_maps : ∀ (key : String) (bytes : List UInt8) (raw : Raw Ctx),
    @loadDylib Ctx _ key bytes = .ok raw →
    rawMaps raw ⊆ (@dylibImages Ctx _ _ key bytes).map (·.linkMap)
  prepareLoad_maps : ∀ (ctx : Ctx) (caller : Option ModuleId) (path : String)
    (pending : Pending Ctx), prepareLoad ctx caller path = .ok pending →
    pendingMaps pending ⊆ (loadImages ctx caller path).map (·.linkMap)
  prepareMapped_maps : ∀ (ctx : Ctx) (caller : Option ModuleId) (key : String) (raw : Raw Ctx)
    (pending : Pending Ctx), prepareMapped ctx caller key raw = .ok pending →
    pendingMaps pending ⊆ rawMaps raw ++ (mappedImages ctx caller key raw).map (·.linkMap)
  relocate_maps : ∀ pending relocated : Pending Ctx, relocate pending = .ok relocated →
    pendingMaps relocated = pendingMaps pending
  publish_maps : ∀ (ctx next : Ctx) (pending : Pending Ctx) (load : LoadResult),
    publish ctx pending = .ok (load, next) →
    load.modules.filterMap (fun id => (module next id).bind ModuleHandle.linkMap) =
      pendingMaps pending
  publish_new : ∀ (ctx next : Ctx) (pending : Pending Ctx) (load : LoadResult),
    publish ctx pending = .ok (load, next) → ∀ id ∈ load.modules, ∀ handle,
    module next id = some handle → ∀ record ∈ (view ctx).modules, record.handle ≠ handle

end DynLinker.Loader
