import ResponseExport.Disk.Basic

/-!
# `ResponseExport.Disk.Usual`: a machine as most are

`Disk.usual` is a disk with the directories, links and devices that nearly every machine has, and
with the files that it is given. What a command does on it can be told without a real machine.
-/

set_option autoImplicit false

namespace ResponseExport.Disk

/-- The place of a path without `.` and `..`. -/
def placeOf (path : String) : Place := (parts path).filter (!·.isEmpty)

/-- Directories in which files can be made. -/
def usualDirectories : List String :=
  ["/boot", "/dev", "/dev/shm", "/etc", "/home", "/lib64", "/media", "/mnt", "/opt", "/root", "/run",
    "/run/lock", "/srv", "/tmp", "/usr", "/usr/bin", "/usr/games", "/usr/include", "/usr/lib",
    "/usr/local", "/usr/local/bin", "/usr/local/lib", "/usr/local/share", "/usr/sbin",
    "/usr/share", "/usr/src", "/var", "/var/backups", "/var/cache", "/var/lib", "/var/local",
    "/var/log", "/var/mail", "/var/opt", "/var/spool", "/var/tmp"]

/-- Directories in which nothing can be made, and why. -/
def closedDirectories : List (String × FileError) :=
  [("/dev/pts", .denied), ("/proc", .notFound), ("/proc/1", .notFound),
    ("/proc/1/fd", .notFound), ("/proc/sys", .notFound), ("/sys", .denied), ("/sys/class", .denied),
    ("/sys/dev", .denied), ("/sys/devices", .denied), ("/sys/fs", .denied),
    ("/sys/kernel", .denied)]

/-- Links. The running program is the process of number one. -/
def usualLinks : List (String × String) :=
  [("/bin", "/usr/bin"), ("/sbin", "/usr/sbin"), ("/lib", "/usr/lib"), ("/var/run", "/run"),
    ("/var/lock", "/run/lock"), ("/proc/self", "/proc/1"), ("/proc/1/root", "/"),
    ("/dev/fd", "/proc/1/fd")]

/-- Devices. The standard streams of the program have several names. -/
def usualDevices : List (String × Device) :=
  [("/dev/null", .sink), ("/dev/zero", .sink), ("/dev/random", .sink), ("/dev/urandom", .sink),
    ("/dev/full", .full), ("/dev/tty", .unplugged),
    ("/dev/stdin", .sink), ("/dev/stdout", .output), ("/dev/stderr", .errors),
    ("/proc/1/fd/0", .sink), ("/proc/1/fd/1", .output), ("/proc/1/fd/2", .errors)]

/-- Files. Nothing is said about what they hold but that it is one line. -/
def usualFiles : List String :=
  ["/etc/passwd", "/etc/group", "/etc/hosts", "/etc/hostname", "/etc/os-release",
    "/etc/resolv.conf", "/etc/fstab", "/usr/bin/sh", "/usr/bin/bash", "/usr/bin/env",
    "/usr/bin/ls", "/usr/bin/cat", "/usr/bin/true", "/proc/version", "/proc/cpuinfo",
    "/proc/meminfo", "/proc/uptime", "/proc/1/exe", "/proc/1/status", "/proc/1/cmdline",
    "/proc/1/environ", "/proc/1/maps"]

/-- A place and every place above it, but the root. -/
def upTo (p : Place) : List Place := (List.range p.length).map fun n => p.take (n + 1)

/-- A usual disk seen from a place, with more files and the directories in which they stand. -/
def usual (here : Place) (files : List (Place × List UInt8)) : Disk where
  here
  nodes :=
    files.map (fun (p, data) => (p, .file data)) ++
      usualDevices.map (fun (p, v) => (placeOf p, .device v)) ++
      (placeOf "/proc/1/cwd", .link here) ::
      usualLinks.map (fun (p, q) => (placeOf p, .link (placeOf q))) ++
      closedDirectories.map (fun (p, e) => (placeOf p, .directory (some e))) ++
      usualDirectories.map (fun p => (placeOf p, .directory none)) ++
      usualFiles.map (fun p => (placeOf p, .file [45, 10])) ++
      (here :: files.map (·.1.dropLast)).flatMap fun p =>
        (upTo p).map fun q => (q, .directory none)

end ResponseExport.Disk
